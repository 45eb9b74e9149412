import ChangeImpact.Change.ChangeSet
import ChangeImpact.Decimal.Digits
import ChangeImpact.Path.Basic
import ChangeImpact.Text.Utf8

/-!
# What git knows

Questions to git are lists of arguments, and its answers are data. An action here asks in a
fixed order and keeps a record of what was asked. The list of changed files is needed, so a
failure there is an error; without a diff or a log the work goes on. Where git cannot be started
for another reason than that it is not there, no action goes on.
-/

namespace ChangeImpact

open Text
open Text.Utf8 (Bytes)

/-- What keeps any program from being started: the form of an argument, or the system. -/
inductive CallFault where
  | argument (reason : String)
  | system (reason : String)
  deriving Repr, DecidableEq

def CallFault.message : CallFault → String
  | argument reason => reason
  | system reason => reason

inductive GitReply (Output : Type) where
  | finished (stdout stderr : Output) (code : Int)
  | unavailable (reason : String)
  | refused (e : CallFault)
  deriving Repr, DecidableEq

def GitReply.map {α β : Type} (f : α → β) : GitReply α → GitReply β
  | finished stdout stderr code => finished (f stdout) (f stderr) code
  | unavailable reason => unavailable reason
  | refused e => refused e

abbrev Question := List LooseText

abbrev Git := Question → GitReply String

abbrev Asking := StateM (List Question)

structure GitError where
  command : String
  detail : String
  deriving Repr, DecidableEq

def GitError.message (e : GitError) : String :=
  "git " ++ e.command ++ " failed" ++ (if e.detail == "" then "" else ": " ++ e.detail)

inductive AskError where
  | git (e : GitError)
  | call (e : CallFault)
  deriving Repr, DecidableEq

namespace Git

def withLineFeeds : List Char → List Char
  | [] => []
  | '\r' :: '\n' :: r => '\n' :: withLineFeeds r
  | '\r' :: r => '\n' :: withLineFeeds r
  | c :: r => c :: withLineFeeds r

def outputText (bs : Bytes) : String := String.ofList (withLineFeeds (Utf8.decodeLossy bs))

def ofProgram (program : Question → GitReply Bytes) : Git := fun question =>
  (program question).map outputText

def ask (git : Git) (question : Question) : Asking (Except AskError String) := do
  modify (· ++ [question])
  let command := (question.headD "").visible
  match git question with
  | .unavailable reason => return .error (.git ⟨command, reason⟩)
  | .refused e => return .error (.call e)
  | .finished stdout stderr code =>
    if code == 0 then return .ok stdout
    else return .error (.git ⟨command, String.ofList (strip stderr.toList)⟩)

def sinceParting (base head : LooseText) : LooseText := base ++ .ofString "..." ++ head

def statusOfLetter (code : List Char) : ChangeStatus :=
  match code.head? with
  | some 'A' => .added
  | some 'D' => .deleted
  | _ => .modified

def statuses : List (List Char) → List (String × ChangeStatus)
  | code :: path :: r => (String.ofList path, statusOfLetter code) :: statuses r
  | _ => []

def lastStatus? (table : List (String × ChangeStatus)) (path : String) : Option ChangeStatus :=
  table.reverse.lookup path

/-- Two counts and a path with tabs between them; other records are passed over. -/
def record? (s : List Char) : Option (List Char × List Char × List Char) := do
  let (added, r) ← cut? '\t' s
  let (deleted, path) ← cut? '\t' r
  pure (added, deleted, path)

/-- The file that a record shows. A dash for a count marks a file that is not text. -/
def changedFile (table : List (String × ChangeStatus)) (added deleted path : List Char) :
    Except IntegerError ChangedFile :=
  let path := String.ofList path
  let status := lastStatus? table path
  if added == ['-'] || deleted == ['-'] then
    let shown := status.getD .binary
    .ok { path, status := if shown = .modified then .binary else shown }
  else do
    let additions ← readInteger (String.ofList added)
    let deletions ← readInteger (String.ofList deleted)
    pure { path, additions, deletions, status := status.getD .modified }

def readChanges (numstat nameStatus : String) : Except IntegerError ChangeSet :=
  let table := statuses (splitOn '\x00' nameStatus.toList)
  ((splitOn '\x00' numstat.toList).filterMap record?).mapM
    (fun (added, deleted, path) => changedFile table added deleted path) |>.map ChangeSet.mk

inductive ChangesError where
  | asked (e : AskError)
  | number (e : IntegerError)
  deriving Repr, DecidableEq

def changedFiles (git : Git) (base head : LooseText) : Asking (Except ChangesError ChangeSet) := do
  let range := sinceParting base head
  match ← git.ask ["diff", "--numstat", "-z", "--no-renames", range] with
  | .error e => return .error (.asked e)
  | .ok numstat =>
    match ← git.ask ["diff", "--name-status", "-z", "--no-renames", range] with
    | .error e => return .error (.asked e)
    | .ok nameStatus => return (readChanges numstat nameStatus).mapError .number

def orElse {α : Type} (answer : Except AskError α) (absent : α) : Except CallFault α :=
  match answer with
  | .ok a => .ok a
  | .error (.git _) => .ok absent
  | .error (.call e) => .error e

def diffText (git : Git) (base head : LooseText) (limit : Int) :
    Asking (Except CallFault String) := do
  let answer ← git.ask ["diff", sinceParting base head]
  return orElse (answer.map fun s => String.ofList (firstItems limit s.toList)) ""

def commitMessages (git : Git) (base head : LooseText) (limit : Int) :
    Asking (Except CallFault (List String)) := do
  if limit ≤ 0 then return .ok []
  else
    let answer ← git.ask ["log", "--format=%s", .ofString ("-n" ++ Decimal.ofInt limit),
      base ++ .ofString ".." ++ head]
    return orElse (answer.map fun s =>
      ((lines s.toList).filter (!·.all isBlank)).map String.ofList) []

/-- The path by which git names the top of the work tree that holds the folder `start`, or that
folder where git does not tell; `here` is where a relative answer starts from. -/
def topLevel (git : Git) (here start : Path) : Asking (Except CallFault Path) := do
  let answer ← git.ask ["rev-parse", "--show-toplevel"]
  return orElse (answer.map fun s => here.child (String.ofList (strip s.toList))) start

end Git

end ChangeImpact
