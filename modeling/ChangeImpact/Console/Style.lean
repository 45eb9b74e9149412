import ChangeImpact.Text.Integer
import ChangeImpact.Text.LowerCase

/-!
# Styles

A style is described by words: attributes, each of them perhaps denied, a colour, a colour behind
`on` for the ground, and an address behind `link`. Two descriptions of one style have the same
normal form. Words that describe no style are a name, letter case aside.
-/

namespace ChangeImpact.Console

inductive StyleFault where
  | unknown
  /-- A part of a colour is no number that can be read. -/
  | colorNumber
  deriving Repr, DecidableEq

def attributes : List (String × List String) :=
  [("bold", ["b"]), ("dim", ["d"]), ("italic", ["i"]), ("underline", ["u"]), ("blink", []),
    ("blink2", []), ("reverse", ["r"]), ("conceal", ["c"]), ("strike", ["s"]),
    ("underline2", ["uu"]), ("frame", []), ("encircle", []), ("overline", ["o"])]

def attribute? (word : String) : Option String :=
  (attributes.find? fun (name, short) => name == word || short.contains word).map (·.1)

def colorNames : String := "
  aquamarine1 aquamarine3 black blue blue1 blue3 blue_violet bright_black bright_blue
  bright_cyan bright_green bright_magenta bright_red bright_white bright_yellow cadet_blue
  chartreuse1 chartreuse2 chartreuse3 chartreuse4 cornflower_blue cornsilk1 cyan cyan1 cyan2
  cyan3 dark_blue dark_cyan dark_goldenrod dark_green dark_khaki dark_magenta dark_olive_green1
  dark_olive_green2 dark_olive_green3 dark_orange dark_orange3 dark_red dark_sea_green
  dark_sea_green1 dark_sea_green2 dark_sea_green3 dark_sea_green4 dark_slate_gray1
  dark_slate_gray2 dark_slate_gray3 dark_turquoise dark_violet deep_pink1 deep_pink2 deep_pink3
  deep_pink4 deep_sky_blue1 deep_sky_blue2 deep_sky_blue3 deep_sky_blue4 dodger_blue1
  dodger_blue2 dodger_blue3 gold1 gold3 gray0 gray100 gray11 gray15 gray19 gray23 gray27 gray3
  gray30 gray35 gray37 gray39 gray42 gray46 gray50 gray53 gray54 gray58 gray62 gray63 gray66
  gray69 gray7 gray70 gray74 gray78 gray82 gray84 gray85 gray89 gray93 green green1 green3
  green4 green_yellow grey0 grey100 grey11 grey15 grey19 grey23 grey27 grey3 grey30 grey35
  grey37 grey39 grey42 grey46 grey50 grey53 grey54 grey58 grey62 grey63 grey66 grey69 grey7
  grey70 grey74 grey78 grey82 grey84 grey85 grey89 grey93 honeydew2 hot_pink hot_pink2 hot_pink3
  indian_red indian_red1 khaki1 khaki3 light_coral light_cyan1 light_cyan3 light_goldenrod1
  light_goldenrod2 light_goldenrod3 light_green light_pink1 light_pink3 light_pink4
  light_salmon1 light_salmon3 light_sea_green light_sky_blue1 light_sky_blue3 light_slate_blue
  light_slate_gray light_slate_grey light_steel_blue light_steel_blue1 light_steel_blue3
  light_yellow3 magenta magenta1 magenta2 magenta3 medium_orchid medium_orchid1 medium_orchid3
  medium_purple medium_purple1 medium_purple2 medium_purple3 medium_purple4 medium_spring_green
  medium_turquoise medium_violet_red misty_rose1 misty_rose3 navajo_white1 navajo_white3
  navy_blue orange1 orange3 orange4 orange_red1 orchid orchid1 orchid2 pale_green1 pale_green3
  pale_turquoise1 pale_turquoise4 pale_violet_red1 pink1 pink3 plum1 plum2 plum3 plum4 purple
  purple3 purple4 red red1 red3 rosy_brown royal_blue1 salmon1 sandy_brown sea_green1 sea_green2
  sea_green3 sky_blue1 sky_blue2 sky_blue3 slate_blue1 slate_blue3 spring_green1 spring_green2
  spring_green3 spring_green4 steel_blue steel_blue1 steel_blue3 tan thistle1 thistle3
  turquoise2 turquoise4 violet wheat1 wheat4 white yellow yellow1 yellow2 yellow3 yellow4
"

def isColorName (name : List Char) : Bool :=
  name == "default".toList || (Text.words colorNames.toList).contains name

def isHexColor : List Char → Bool
  | '#' :: ds => ds.length == 6 && ds.all fun c => c.isDigit || ('a' ≤ c && c ≤ 'f')
  | _ => false

def inBrackets? (name : String) (word : List Char) : Option (List Char) :=
  match Text.after? (name.toList ++ ['(']) word with
  | some r => if r.getLast? == some ')' then some r.dropLast else none
  | none => none

def colorLimit : Nat := 255

def isNumberedColor (word : List Char) : Bool :=
  match inBrackets? "color" word with
  | some ds =>
    !ds.isEmpty && ds.length ≤ 3 && ds.all Char.isDigit &&
      Text.ofDigits (ds.map fun c => c.toNat - 48) ≤ colorLimit
  | none => false

def readParts (inside : List Char) : Except StyleFault Unit :=
  let parts := Text.splitOn ',' inside
  if inside.isEmpty || inside.any (fun c => !(Text.isDigit c || c == ',')) || parts.length != 3 then
    .error .unknown
  else
    match parts.mapM fun p => Text.readInteger (String.ofList p) with
    | .error _ => .error .colorNumber
    | .ok ns => if ns.all (· ≤ colorLimit) then .ok () else .error .unknown

def readColor (word : String) : Except StyleFault String :=
  let name := Text.lower word
  let cs := name.toList
  if isColorName cs || isHexColor cs || isNumberedColor cs then .ok name
  else match inBrackets? "rgb" cs with
    | some inside => (readParts inside).map fun _ => name
    | none => .error .unknown

structure Style where
  attributes : List (String × Bool) := []
  color : Option String := none
  ground : Option String := none
  link : Option String := none
  deriving Repr, DecidableEq

namespace Style

def put (s : Style) (name : String) (isSet : Bool) : Style :=
  { s with attributes := (name, isSet) :: s.attributes }

def readWords (s : Style) : List String → Except StyleFault Style
  | [] => .ok s
  | word :: r =>
    let lowered := Text.lower word
    if lowered == "on" then
      match r with
      | [] => .error .unknown
      | color :: r => (readColor color).bind fun c => readWords { s with ground := some c } r
    else if lowered == "not" then
      match r with
      | [] => .error .unknown
      | name :: r => match attribute? name with
        | some a => readWords (s.put a false) r
        | none => .error .unknown
    else if lowered == "link" then
      match r with
      | [] => .error .unknown
      | address :: r => readWords { s with link := some address } r
    else match attribute? lowered with
      | some a => readWords (s.put a true) r
      | none => (readColor word).bind fun c => readWords { s with color := some c } r

def text (s : Style) : String :=
  let shown := Console.attributes.filterMap fun (name, _) =>
    (s.attributes.lookup name).map fun isSet => if isSet then name else "not " ++ name
  let words := shown ++ s.color.toList ++ (s.ground.map ("on " ++ ·)).toList ++
    (s.link.map ("link " ++ ·)).toList
  if words.isEmpty then "none" else " ".intercalate words

def normalForm (description : List Char) : Except StyleFault String :=
  let name := Text.strip description
  if name == "none".toList then .ok "none"
  else match readWords {} ((Text.words description).map String.ofList) with
    | .ok s => .ok s.text
    | .error .unknown => .ok (Text.lower (String.ofList name))
    | .error e => .error e

end Style

end ChangeImpact.Console
