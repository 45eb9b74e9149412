import ChangeImpact.Json.Writer
import ChangeImpact.Repository.Basic
import ChangeImpact.Risk.StandardRules
import ChangeImpact.Risk.TableFile
import ChangeImpact.Source.Limits
import ChangeImpact.Template.Layout

/-!
# Stored settings and rules

A repository may hold a file of settings, which may name a file of rules. Without them the
standard ones hold. A file that is there and cannot be used is an error, never passed over.
-/

namespace ChangeImpact

open Text.Utf8 (Bytes)

inductive StoredFault where
  | missing
  | folder
  | insideFile
  | disk (e : DiskFault)
  | unspellable
  | notUtf8 (content : Bytes)
  | notJson
  | digitLimit
  | tooDeep
  | notObject
  | invalid (issues : List Issue)
  deriving Repr, DecidableEq

inductive StoredKind where
  | settings
  | rules
  deriving Repr, DecidableEq

structure StoredError where
  kind : StoredKind
  file : Path
  fault : StoredFault
  deriving Repr, DecidableEq

inductive SaveFault where
  | disk (e : DiskFault)
  | fileExists (path : Path)
  | insideFile (path : Path)
  | digitLimit
  | folder (path : Path)
  deriving Repr, DecidableEq

def StoredFault.message (file : Path) : StoredFault → String
  | missing => "[Errno 2] No such file or directory: " ++ Text.Quoted.quote file.text
  | folder => "[Errno 21] Is a directory: " ++ Text.Quoted.quote file.text
  | insideFile => "[Errno 20] Not a directory: " ++ Text.Quoted.quote file.text
  | disk e => e.message
  | unspellable => "surrogates not allowed"
  | notUtf8 content => Text.Utf8.faultMessage content
  | notJson => "not valid JSON"
  | digitLimit => "a number has too many digits"
  | tooDeep => "maximum recursion depth exceeded"
  | notObject => "not a JSON object"
  | invalid issues => Issue.messages issues

/-- An error that is told with the name of the file. Whether settings are there is asked before
they are read, and a disk that does not take the question is not foreseen. -/
def StoredError.isForeseen (e : StoredError) : Bool :=
  match e.fault with
  | .missing | .folder | .insideFile | .notJson | .invalid _ => true
  | .disk fault => e.kind = .rules && !fault.isOfValue
  | .unspellable | .notUtf8 _ | .digitLimit | .tooDeep | .notObject => false

def StoredError.message (e : StoredError) : String :=
  if e.isForeseen then
    (match e.kind with
      | .settings => "Invalid config file "
      | .rules => "Invalid risk rule table ") ++ e.file.text ++ ": " ++ e.fault.message e.file
  else e.fault.message e.file

namespace Repository

def readStored (disk : Tree) (file : Path) : Except StoredFault String :=
  if file.holdsNull then .error (.disk .nullCharacter)
  else if disk.refuses file then .error (.disk (.tooLong file))
  else match disk.at? file with
    | some (.file content) =>
      match Text.Utf8.decode? content with
      | some s => .ok (String.ofList s)
      | none => .error (.notUtf8 content)
    | some (.folder _) => .error .folder
    | none => .error (if disk.leadsThroughFile file then .insideFile else .missing)

def settingsFile (root : Path) : Path := (root.child settingsFolder).child "config.json"

def parseSettings (nesting : Nat) (s : String) : Except StoredFault Settings :=
  match Json.read nesting s with
  | .error .malformed => .error .notJson
  | .error .digitLimit => .error .digitLimit
  | .error .tooDeep => .error .tooDeep
  | .ok (.object fields) => (Settings.checkFields fields).toExcept.mapError .invalid
  | .ok _ => .error .notObject

def loadSettings (m : Machine) (disk : Tree) (root : Path) : Except StoredError Settings :=
  let file := settingsFile root
  if file.holdsNull then .ok {}
  else match Source.lookFault? disk file with
    | some e => .error ⟨.settings, file, .disk e⟩
    | none =>
      if (disk.at? file).isNone then .ok {}
      else ((readStored disk file).bind (parseSettings m.nesting)).mapError (⟨.settings, file, ·⟩)

/-- What keeps the settings from being saved: first the folder for them is made, with those above
it, then their text is written, and then the file. -/
def saveFault? (disk : Tree) (root : Path) (s : Settings) : Option SaveFault :=
  let folder := root.child settingsFolder
  let file := settingsFile root
  if folder.holdsNull then some (.disk .nullCharacter)
  else if disk.refuses folder then some (.disk (.tooLong folder))
  else if disk.isFileAt folder then some (.fileExists folder)
  else if disk.leadsThroughFile folder then some (.insideFile folder)
  else if folder.parts.any (Tree.nameLimit < ·.utf8ByteSize) then some (.disk (.tooLong folder))
  else if s.integers.any Template.Layout.isOverlong then some .digitLimit
  else if disk.refuses file then some (.disk (.tooLong file))
  else if disk.isFolderAt file then some (.folder file)
  else none

def saveSettings (disk : Tree) (root : Path) (s : Settings) : Except SaveFault Tree :=
  match saveFault? disk root s with
  | some e => .error e
  | none =>
    .ok (disk.write (settingsFile root) (Text.Utf8.encode (Json.write .stored s.toJson).toList))

def loadRules (disk : Tree) (file : Path) : Except StoredError Risk.RuleTable :=
  ((readStored disk file).bind fun s => (Risk.RuleTable.read s).toExcept.mapError .invalid).mapError
    (⟨.rules, file, ·⟩)

/-- A file with a name that is no ordinary text. Some surrogates stand for single bytes, and a
disk can look for such a name. -/
def strangeFile (name : LooseText) : StoredFault :=
  if name.points.all fun p => !p.isSurrogate || p.isByte then .missing else .unspellable

def rules (r : Repository) : Except StoredError Risk.RuleTable :=
  match r.settings.risk.rulesFile with
  | none => .ok Risk.standardRules
  | some name =>
    if name.isEmpty then .ok Risk.standardRules
    else match name.toString? with
      | some s => loadRules r.disk (r.root.child s)
      | none => .error ⟨.rules, r.root, strangeFile name⟩

end Repository

end ChangeImpact
