import ChangeImpact.CommandLine.Run

/-!
# The program

Takes in the part of the disk around the current folder and around the folder that is asked
for, runs the command on it, and hands out what the outcome says. The replies of git are taken
from a file of JSON that an environment variable names: for each question, its arguments with
blanks between them, the text of the reply, or its output, error output and exit code.
-/

namespace ChangeImpact

open CommandLine

namespace Program

def isHidden (name : String) : Bool := name == ".git"

partial def readTree (path : String) : IO Tree := do
  let place ← IO.FS.realPath path
  if ← place.isDir then
    let entries ← place.readDir
    let found ← entries.toList.mapM fun e => do
      let t ← if isHidden e.fileName then pure Tree.empty
        else readTree (path ++ "/" ++ e.fileName)
      return (e.fileName, t)
    return .folder found
  else return .file (← IO.FS.readBinFile path).toList

def takeIn (disk : Tree) (p : Path) : IO Tree := do
  try return Tree.put (← readTree p.text) p.parts disk
  catch _ => return disk

def isThere (p : Path) : IO Bool := do
  try (← IO.FS.realPath p.text).pathExists catch _ => return false

def topOf (here : Path) : IO Path := do
  for parts in Repository.outward here.parts do
    let p : Path := ⟨.root, parts⟩
    if (← isThere (p.child Repository.settingsFolder)) || (← isThere (p.child ".git")) then
      return p
  return here

def pathOf : Command → Option String
  | .analyze _ _ path _ _ | .deps _ path _ | .tests _ path | .serve path _ | .config _ _ _ path =>
    path
  | _ => none

def textField (v : Json) (name : String) : String := ((v.field? name).bind Json.string?).getD ""

def bytesOf (s : String) : Text.Utf8.Bytes := Text.Utf8.encode s.toList

def replyOf : Json → GitReply Text.Utf8.Bytes
  | .text s => .finished (bytesOf s.visible) [] 0
  | v =>
    let code := match v.field? "code" with
      | some (.int n) => n
      | _ => 0
    .finished (bytesOf (textField v "stdout")) (bytesOf (textField v "stderr")) code

def gitOf (replies : Json) : Git := Git.ofProgram fun question =>
  match replies.field? (LooseText.intercalate " " question).visible with
  | some v => replyOf v
  | none => .finished [] (bytesOf "fatal: no reply is recorded") 128

def git : IO Git := do
  match ← IO.getEnv "IMPACTLENS_GIT" with
  | none => return fun _ => .unavailable "git is not at hand"
  | some file =>
    match Json.read Machine.usual.nesting (← IO.FS.readFile file) with
    | .ok replies => return gitOf replies
    | .error _ => throw (IO.userError (file ++ " is not valid JSON"))

def readInput (command : Except UsageError Command) : IO Text.Utf8.Bytes := do
  match command with
  | .ok (.serve _ false) => return (← (← IO.getStdin).readBinToEnd).toList
  | _ => return []

def store (s : Surroundings) (command : Except UsageError Command) (o : Outcome) : IO Unit := do
  match command with
  | .ok (.config .set _ _ path) =>
    match s.root path with
    | .ok root =>
      match o.disk.at? (Repository.settingsFile root) with
      | some (.file content) =>
        IO.FS.createDirAll (root.child Repository.settingsFolder).text
        IO.FS.writeBinFile (Repository.settingsFile root).text ⟨content.toArray⟩
      | _ => return
    | .error _ => return
  | _ => return

end Program

end ChangeImpact

open ChangeImpact CommandLine Program in
def main (words : List String) : IO UInt32 := do
  let args := words.map LooseText.ofString
  let begun ← IO.monoMsNow
  let here := Path.ofString (← IO.currentDir).toString
  let command := Command.read args
  let disk ← takeIn .empty (← topOf here)
  let disk ← match command.toOption.bind pathOf with
    | some p => takeIn disk (here.child p).resolve
    | none => pure disk
  let git ← git
  let input ← readInput command
  let s : Surroundings :=
    { machine := .usual, disk, here, git, input, tenths := ((← IO.monoMsNow) - begun) / 100 }
  let o := run s args
  IO.print o.stdout
  IO.eprint o.stderr
  if o.code == 0 then store s command o
  return o.code.toUInt32
