import ChangeImpact.Proofs.Analysis.Answers
import ChangeImpact.Proofs.Data.Results
import ChangeImpact.Server.Tools

/-!
# Faults of tools that clients are not told of

A tool that fails mostly says so in its result. The other failures leave the tool as they are:
a number of levels without end, a system, a disk or a memory that cannot give what is asked for,
those failures of an analysis that are about attributes, the range of numbers or the depth of
nesting, and revisions or affected files that are nested too deep. For each tool the arguments and
the repository decide which fault there is, if any.
-/

namespace ChangeImpact.Server

open Json (Fields)

inductive DependentsUntold (host : Host) : Json → ToolFault → Prop
  | endless {arguments : Fields} {value path : LooseText} {negative : Bool}
      (given : Fields.named? arguments "path" = some (.text value))
      (inside : host.repository.root.looseInRepository value = .ok path)
      (depth : Fields.named? arguments "max_depth" = some (.real (.infinite negative))) :
      DependentsUntold host (.object arguments) .endless
  | disk {arguments : Fields} {value path : LooseText} {fault : DiskFault}
      (given : Fields.named? arguments "path" = some (.text value))
      (inside : host.repository.root.looseInRepository value = .ok path)
      (depth : ∀ v, Fields.named? arguments "max_depth" = some v → ∃ n, levels v = .ok n)
      (unread : Build.fault? host.repository.machine host.repository.settings.indexer
        host.repository.disk host.repository.root = some fault)
      (machine : fault.isOfValue = false) :
      DependentsUntold host (.object arguments) (.analysis (.disk fault))

inductive BranchUntold (git : Git) (r : Repository) (branch base : Json) : ToolFault → Prop
  | shown (deep : r.machine.showing < max branch.showDepth base.showDepth) :
      BranchUntold git r branch base .tooDeep
  | failure {f : Failure} (shallow : max branch.showDepth base.showDepth ≤ r.machine.showing)
      (fails : Gives (r.analyseBranch git branch.shown (shownIfSaid base)).run (.error f))
      (untold : f.isUntold = true) : BranchUntold git r branch base (.analysis f)
  | drawn {report : Report} (shallow : max branch.showDepth base.showDepth ≤ r.machine.showing)
      (reports : Gives (r.analyseBranch git branch.shown (shownIfSaid base)).run (.ok report))
      (deep : report.renderFault? r.machine = some .tooDeep) :
      BranchUntold git r branch base .tooDeep

def Finds (host : Host) (found : Except Failure Repository) : Prop :=
  Gives (Repository.around host.repository.machine host.repository.disk host.git host.here
    host.repository.root (some host.repository.settings)).run found

inductive AnalysisUntold (host : Host) : Json → ToolFault → Prop
  | unfound {arguments : Fields} {branch : Json} {f : Failure}
      (given : Fields.named? arguments "branch" = some branch) (fails : Finds host (.error f))
      (untold : f.isUntold = true) : AnalysisUntold host (.object arguments) (.analysis f)
  | found {arguments : Fields} {branch : Json} {top : Repository} {e : ToolFault}
      (given : Fields.named? arguments "branch" = some branch) (finds : Finds host (.ok top))
      (untold : BranchUntold host.git top branch
        ((Fields.named? arguments "base").getD .null) e) :
      AnalysisUntold host (.object arguments) e

theorem argument_eq_ok {arguments v : Json} {name : String} :
    argument arguments name = .ok v ↔
      ∃ fields, arguments = .object fields ∧ Fields.named? fields name = some v := by
  cases arguments with
  | object fields =>
    simp only [argument, Json.object.injEq, exists_eq_left']
    cases Fields.named? fields name <;> simp
  | _ => simp [argument]

theorem pathArgument_eq_ok {root : Path} {arguments : Json} {path : LooseText} :
    pathArgument root arguments = .ok path ↔ ∃ fields value, arguments = .object fields ∧
      Fields.named? fields "path" = some (.text value) ∧
        root.looseInRepository value = .ok path := by
  simp only [pathArgument, bind_eq_ok, mapError_eq_ok, argument_eq_ok]
  constructor
  · rintro ⟨v, ⟨fields, hfields, hv⟩, h⟩
    cases v with
    | text value => exact ⟨fields, value, hfields, hv, mapError_eq_ok.mp h⟩
    | _ => cases h
  · rintro ⟨fields, value, hfields, hv, h⟩
    exact ⟨.text value, ⟨fields, hfields, hv⟩, mapError_eq_ok.mpr h⟩

theorem pathArgument_told {root : Path} {arguments : Json} {e : ToolFault}
    (h : pathArgument root arguments = .error e) : e.isTold = true := by
  simp only [pathArgument, bind_eq_error, mapError_eq_error] at h
  rcases h with ⟨fault, -, rfl⟩ | ⟨v, -, h⟩
  · rfl
  · cases v with
    | text s =>
      obtain ⟨fault, -, rfl⟩ := mapError_eq_error.mp h
      rfl
    | _ =>
      obtain rfl := Except.error.inj h
      rfl

theorem levels_untold_iff {v : Json} {e : ToolFault} :
    (levels v = .error e ∧ e.isTold = false) ↔
      e = .endless ∧ ∃ negative, v = .real (.infinite negative) := by
  constructor
  · rintro ⟨h, htold⟩
    cases v with
    | real x =>
      cases x with
      | infinite negative => exact ⟨(Except.error.inj h).symm, negative, rfl⟩
      | finite _ _ _ => cases h
      | notANumber =>
        obtain rfl := Except.error.inj h
        cases htold
    | text s =>
      obtain ⟨fault, -, rfl⟩ := mapError_eq_error.mp h
      cases htold
    | int _ => cases h
    | bool _ => cases h
    | _ =>
      obtain rfl := Except.error.inj h
      cases htold
  · rintro ⟨rfl, negative, rfl⟩
    exact ⟨rfl, rfl⟩

theorem depthArgument_untold_iff {absent : Int} {fields : Fields} {e : ToolFault} :
    (depthArgument absent (.object fields) = .error e ∧ e.isTold = false) ↔
      e = .endless ∧
        ∃ negative, Fields.named? fields "max_depth" = some (.real (.infinite negative)) := by
  simp only [depthArgument, Json.field?]
  cases Fields.named? fields "max_depth" with
  | none => simp
  | some v => simp only [levels_untold_iff, Option.some.injEq]

theorem depthArgument_isOk_iff {absent : Int} {fields : Fields} :
    (∃ n, depthArgument absent (.object fields) = .ok n) ↔
      ∀ v, Fields.named? fields "max_depth" = some v → ∃ n, levels v = .ok n := by
  simp only [depthArgument, Json.field?]
  cases Fields.named? fields "max_depth" with
  | none => simp
  | some v => simp

theorem dependentsOf_untold_iff {r : Repository} {path : LooseText} {depth : Int}
    {e : ToolFault} : (dependentsOf r path depth = .error e ∧ e.isTold = false) ↔
      ∃ fault, Build.fault? r.machine r.settings.indexer r.disk r.root = some fault ∧
        fault.isOfValue = false ∧ e = .analysis (.disk fault) := by
  simp only [dependentsOf, bind_eq_error, mapError_eq_error, Build.attempt]
  cases Build.fault? r.machine r.settings.indexer r.disk r.root with
  | some fault =>
    constructor
    · rintro ⟨⟨fault', h, rfl⟩ | ⟨built, h, -⟩, htold⟩
      · obtain rfl := Except.error.inj h
        exact ⟨fault, rfl, by simpa [ToolFault.isTold, Failure.isUntold] using htold, rfl⟩
      · cases h
    · rintro ⟨_, h, hm, rfl⟩
      obtain rfl := Option.some.inj h
      exact ⟨.inl ⟨fault, rfl, rfl⟩, by simp [ToolFault.isTold, Failure.isUntold, hm]⟩
  | none =>
    constructor
    · rintro ⟨⟨fault', h, rfl⟩ | ⟨built, -, ⟨_, -, rfl⟩ | ⟨impact, -, h⟩⟩, htold⟩
      · cases h
      · cases htold
      · split at h <;> cases h
    · rintro ⟨_, h, -⟩
      cases h

theorem dependentsText_untold_iff {host : Host} {arguments : Json} {e : ToolFault} :
    (dependentsText host arguments = .error e ∧ e.isTold = false) ↔
      DependentsUntold host arguments e := by
  simp only [dependentsText, bind_eq_error]
  constructor
  · rintro ⟨h | ⟨path, hpath, h⟩, htold⟩
    · simp [pathArgument_told h] at htold
    obtain ⟨fields, value, rfl, hvalue, hin⟩ := pathArgument_eq_ok.mp hpath
    rcases h with h | ⟨n, hn, h⟩
    · obtain ⟨rfl, negative, hd⟩ := depthArgument_untold_iff.mp ⟨h, htold⟩
      exact .endless hvalue hin hd
    · obtain ⟨fault, hfault, hm, rfl⟩ := dependentsOf_untold_iff.mp ⟨h, htold⟩
      exact .disk hvalue hin (depthArgument_isOk_iff.mp ⟨n, hn⟩) hfault hm
  · rintro (⟨hvalue, hin, hd⟩ | ⟨hvalue, hin, hd, hfault, hm⟩)
    · obtain ⟨h, htold⟩ := depthArgument_untold_iff.mpr ⟨rfl, _, hd⟩
      exact ⟨.inr ⟨_, pathArgument_eq_ok.mpr ⟨_, _, rfl, hvalue, hin⟩, .inl h⟩, htold⟩
    · obtain ⟨n, hn⟩ := depthArgument_isOk_iff.mpr hd
      obtain ⟨h, htold⟩ := dependentsOf_untold_iff.mpr ⟨_, hfault, hm, rfl⟩
      exact ⟨.inr ⟨_, pathArgument_eq_ok.mpr ⟨_, _, rfl, hvalue, hin⟩, .inr ⟨n, hn, h⟩⟩, htold⟩

theorem inquire_gives {α : Type} {work : Repository.Inquiry α} {r : Except Failure α}
    (h : Gives work.run r) : Gives (inquire work).run (r.mapError .analysis) := fun asked =>
  congrArg (Except.mapError ToolFault.analysis) (h asked)

theorem rendered_untold_iff {m : Machine} {r : Report} {e : ToolFault} :
    (rendered m r = .error e ∧ e.isTold = false) ↔
      e = .tooDeep ∧ r.renderFault? m = some .tooDeep := by
  unfold rendered
  rcases r.renderFault? m with - | - | -
  · simp
  · constructor
    · rintro ⟨h, htold⟩
      obtain rfl := Except.error.inj h
      cases htold
    · rintro ⟨-, h⟩
      cases h
  · constructor
    · rintro ⟨h, -⟩
      exact ⟨(Except.error.inj h).symm, rfl⟩
    · rintro ⟨rfl, -⟩
      exact ⟨rfl, rfl⟩

theorem branchText_gives (git : Git) (r : Repository) (branch base : Json) :
    ∃ a, Gives (branchText git r branch base).run a ∧
      ∀ e, (a = .error e ∧ e.isTold = false) ↔ BranchUntold git r branch base e := by
  unfold branchText
  by_cases hdeep : r.machine.showing < max branch.showDepth base.showDepth
  · refine ⟨.error .tooDeep, Gives.bind_error ?_, fun e => ⟨?_, ?_⟩⟩
    · exact Gives.lift_of_eq (if_pos hdeep)
    · rintro ⟨h, -⟩
      obtain rfl := Except.error.inj h
      exact .shown hdeep
    · rintro (- | ⟨shallow, -, -⟩ | -)
      · exact ⟨rfl, rfl⟩
      · exact absurd hdeep (Nat.not_lt.mpr shallow)
      · exact ⟨rfl, rfl⟩
  · have hshallow := Nat.not_lt.mp hdeep
    have hrevisions : revisions r.machine branch base = .ok (branch.shown, shownIfSaid base) :=
      if_neg hdeep
    obtain ⟨a, ha⟩ := r.analyseBranch_gives git branch.shown (shownIfSaid base)
    refine (Gives.lift_of_eq hrevisions).exists_bind_ok ?_
    cases a with
    | error f =>
      refine ⟨_, Gives.bind_error (inquire_gives ha), fun e => ⟨?_, ?_⟩⟩
      · rintro ⟨h, htold⟩
        obtain rfl := Except.error.inj h
        exact .failure hshallow ha (by simpa [ToolFault.isTold] using htold)
      · rintro (deep | ⟨-, fails, untold⟩ | ⟨-, reports, -⟩)
        · exact absurd deep hdeep
        · obtain rfl := Except.error.inj (ha.unique fails)
          exact ⟨rfl, by simp [ToolFault.isTold, untold]⟩
        · cases ha.unique reports
    | ok report =>
      refine ⟨_, Gives.bind_ok (inquire_gives ha) (Gives.lift _), fun e => ?_⟩
      rw [rendered_untold_iff]
      constructor
      · rintro ⟨rfl, h⟩
        exact .drawn hshallow ha h
      · rintro (deep | ⟨-, fails, -⟩ | ⟨-, reports, deep⟩)
        · exact absurd deep hdeep
        · cases ha.unique fails
        · obtain rfl := Except.ok.inj (ha.unique reports)
          exact ⟨rfl, deep⟩

theorem analysisText_gives (host : Host) (arguments : Json) :
    ∃ r, Gives (analysisText host arguments).run r ∧
      ∀ e, (r = .error e ∧ e.isTold = false) ↔ AnalysisUntold host arguments e := by
  unfold analysisText
  cases ha : argument arguments "branch" with
  | error fault =>
    refine ⟨_, Gives.bind_error (Gives.lift _), fun e => ⟨?_, ?_⟩⟩
    · rintro ⟨h, htold⟩
      obtain rfl := Except.error.inj h
      cases htold
    · rintro (⟨given, -, -⟩ | ⟨given, -, -⟩) <;>
        cases (argument_eq_ok.mpr ⟨_, rfl, given⟩).symm.trans ha
  | ok branch =>
    obtain ⟨fields, rfl, hbranch⟩ := argument_eq_ok.mp ha
    obtain ⟨found, hfound⟩ := Repository.around_gives host.repository.machine
      host.repository.disk host.git host.here host.repository.root (some host.repository.settings)
    refine (Gives.lift _).exists_bind_ok ?_
    cases found with
    | error f =>
      refine ⟨_, Gives.bind_error (inquire_gives hfound), fun e => ⟨?_, ?_⟩⟩
      · rintro ⟨h, htold⟩
        obtain rfl := Except.error.inj h
        exact .unfound hbranch hfound (by simpa [ToolFault.isTold] using htold)
      · rintro (⟨-, fails, untold⟩ | ⟨-, finds, -⟩)
        · obtain rfl := Except.error.inj (hfound.unique fails)
          exact ⟨rfl, by simp [ToolFault.isTold, untold]⟩
        · cases hfound.unique finds
    | ok top =>
      obtain ⟨r, hr, hiff⟩ := branchText_gives host.git top branch
        ((Fields.named? fields "base").getD .null)
      refine ⟨r, Gives.bind_ok (inquire_gives hfound) hr, fun e => ?_⟩
      rw [hiff]
      constructor
      · exact .found hbranch hfound
      · rintro (⟨-, fails, -⟩ | ⟨given, finds, untold⟩)
        · cases hfound.unique fails
        · obtain rfl := Option.some.inj (hbranch.symm.trans given)
          obtain rfl := Except.ok.inj (hfound.unique finds)
          exact untold

end ChangeImpact.Server
