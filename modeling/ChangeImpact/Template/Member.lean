import ChangeImpact.Template.Kind
import ChangeImpact.Template.Layout
import ChangeImpact.Text.Quoted

/-!
# Stepping into a value

A field may name a member of a value by its name or by its position. What is reached is a value
again, or nothing, a kind, a row of kinds, a part of a kind, or a part that is bound to the thing
it is asked of. Of a kind, what it says of itself comes before its parts, and these come before
the parts that it has as a thing.
-/

namespace ChangeImpact.Template

inductive Member where
  | value (v : Value)
  | nothing
  | kind (k : Kind)
  | kinds (ks : List Kind)
  | bound (self : Member) (owner : Kind) (name : String) (service : Service)
  | part (owner : Kind) (name : String) (service : Service)
  deriving Repr, DecidableEq

inductive StepError where
  | noAttribute (holder name : String)
  | outOfRange (kind : String)
  | notAnIndex (kind : String)
  | notIndexable (holder : String)
  deriving Repr, DecidableEq

def StepError.message : StepError → String
  | noAttribute holder name => holder ++ " has no attribute '" ++ name ++ "'"
  | outOfRange kind => kind ++ " index out of range"
  | notAnIndex kind =>
    if kind == Kind.name .text then "string indices must be integers, not 'str'"
    else kind ++ " indices must be integers or slices, not str"
  | notIndexable holder => holder ++ " is not subscriptable"

def Kind.ofPart : Service → Kind
  | .slot => .slotPart
  | .method | .ofKind | .maker | .free => .methodPart
  | .attribute => .attributePart
  | .member => .memberPart

namespace Member

def text (s : String) : Member := .value (.text s)

def number (n : Int) : Member := .value (.number n)

def textOr (s : Option String) : Member := (s.map text).getD .nothing

def kindOf : Member → Kind
  | value (.text _) => .text
  | value (.number _) => .number
  | nothing => .nothing
  | kind _ => .kind
  | kinds _ => .row
  | bound _ _ _ .slot => .wrapper
  | bound _ _ _ _ => .function
  | part _ _ s => .ofPart s

def numberFact? (n : Int) (name : String) : Option Member :=
  if name == "real" || name == "numerator" then some (number n)
  else if name == "imag" then some (number 0)
  else if name == "denominator" then some (number 1)
  else none

def kindFact? (k : Kind) (name : String) : Option Member :=
  let others := k.ancestry.drop 1
  if name == "__name__" || name == "__qualname__" then some (text k.name)
  else if name == "__module__" then some (text "builtins")
  else if name == "__mro__" then some (.kinds k.ancestry)
  else if name == "__bases__" then some (.kinds others)
  else if name == "__base__" then some ((others.head?.map kind).getD .nothing)
  else if name == "__doc__" then
    if (k.ownPart? name).isSome && k != .kind then some (.part k name .attribute)
    else some (textOr k.description?)
  else if name == "__text_signature__" then some (textOr k.signature?)
  else if name == "__basicsize__" then some (number k.basicSize)
  else if name == "__itemsize__" then some (number k.itemSize)
  else if name == "__dictoffset__" then some (number k.tableOffset)
  else if name == "__weakrefoffset__" then some (number k.referenceOffset)
  else if name == "__flags__" then some (number k.flags)
  else none

def partFact? (owner : Kind) (name asked : String) : Option Member :=
  if asked == "__name__" then some (text name)
  else if asked == "__qualname__" then some (text (owner.name ++ "." ++ name))
  else if asked == "__objclass__" then some (.kind owner)
  else none

/-- What a part says of itself that is bound to `self`: a slot knows the kind it is from, the
others only what they are bound to. -/
def boundFact? (self : Member) (owner : Kind) (name : String) (service : Service)
    (asked : String) : Option Member :=
  if asked == "__self__" then some (if service == .free then .nothing else self)
  else if service == .slot then partFact? owner name asked
  else if asked == "__name__" then some (text name)
  else if asked == "__qualname__" then
    let holder := match self with
      | kind k => k
      | m => m.kindOf
    some (text (holder.name ++ "." ++ name))
  else none

def fact? (m : Member) (name : String) : Option Member :=
  if name == "__class__" then some (.kind m.kindOf)
  else match m with
    | value (.number n) => numberFact? n name
    | kind k => kindFact? k name
    | bound self owner own service => boundFact? self owner own service name
    | part owner own _ => partFact? owner own name
    | _ => none

/-- The part `name` from `owner`, asked of `m`; what can only be read from a thing says nothing
where the thing does not tell it. -/
def bind (m : Member) (owner : Kind) (name : String) : Service → Member
  | .slot => .bound m owner name .slot
  | .method => .bound m owner name .method
  | .attribute | .member => .nothing
  | .ofKind => .bound (.kind m.kindOf) owner name .ofKind
  | .maker => .bound (.kind owner) owner name .maker
  | .free => .bound (.kind owner) owner name .free

def ofKind (k owner : Kind) (name : String) : Service → Member
  | .ofKind => .bound (.kind k) owner name .ofKind
  | .maker => .bound (.kind owner) owner name .maker
  | .free => .bound (.kind owner) owner name .free
  | service => .part owner name service

def isUntold (name : String) : Bool :=
  ["__abstractmethods__", "__annotations__", "__dict__"].contains name

def ofParts? (m : Member) (name : String) : Option Member :=
  let asThing := fun (_ : Unit) =>
    (m.kindOf.part? name).map fun (owner, service) => m.bind owner name service
  match m with
  | kind k =>
    if isUntold name then none
    else match k.part? name with
      | some (owner, service) => some (ofKind k owner name service)
      | none => asThing ()
  | _ =>
    if name == "__doc__" then some (textOr m.kindOf.description?) else asThing ()

def holder (m : Member) : String :=
  match m with
  | kind k => "type object '" ++ k.name ++ "'"
  | m => "'" ++ m.kindOf.name ++ "' object"

def named (m : Member) (name : String) : Except StepError Member :=
  match (m.fact? name).orElse fun _ => m.ofParts? name with
  | some found => .ok found
  | none => .error (.noAttribute m.holder name)

/-- What stands at a position, counted from 0; a key that is no number is a position of nothing. -/
def item (m : Member) (position : Option Nat) : Except StepError Member :=
  let pick {α : Type} (xs : List α) (put : α → Member) : Except StepError Member :=
    match position with
    | none => .error (.notAnIndex m.kindOf.name)
    | some i => match xs[i]? with
      | some x => .ok (put x)
      | none => .error (.outOfRange (if m.kindOf == .text then "string" else m.kindOf.name))
  match m with
  | value (.text s) => pick s.toList fun c => text c.toString
  | kinds ks => pick ks kind
  | kind k => .error (.notIndexable ("type '" ++ k.name ++ "'"))
  | m => .error (.notIndexable m.holder)

def kindText (k : Kind) : String := "<class '" ++ k.name ++ "'>"

/-- How a thing is written. Where a bound part says where its thing is kept, no place is told. -/
def shown : Member → Except LayoutError String
  | value v => v.written
  | nothing => .ok "None"
  | kind k => .ok (kindText k)
  | kinds [k] => .ok ("(" ++ kindText k ++ ",)")
  | kinds ks => .ok ("(" ++ ", ".intercalate (ks.map kindText) ++ ")")
  | part owner name service =>
    let title := match service with
      | .slot => "slot wrapper"
      | .method | .ofKind | .maker | .free => "method"
      | .attribute => "attribute"
      | .member => "member"
    .ok ("<" ++ title ++ " '" ++ name ++ "' of '" ++ owner.name ++ "' objects>")
  | bound self _ name service =>
    let title :=
      if service == .slot then "<method-wrapper '" ++ name ++ "'" else "<built-in method " ++ name
    .ok (title ++ " of " ++ self.kindOf.name ++ " object at 0x0>")

def quoted (quote : LooseText → String) : Member → Except LayoutError String
  | value (.text s) => .ok (quote s)
  | m => m.shown

end Member

end ChangeImpact.Template
