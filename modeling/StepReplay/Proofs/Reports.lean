import StepReplay.Environment.Scripted
import StepReplay.Proofs.Disk
import StepReplay.Proofs.Progress
import StepReplay.Proofs.Table

set_option autoImplicit false

/-! # The reports of a run

Each failing case writes its report into the work directory, under the name of the case with
underscores for slashes. Two cases whose names agree up to that write the same file, and the later
report replaces the earlier one. `run_reports` says what the directory holds after a run and that
every failing case has a file of its own just when no two of them share a name in this way. -/

namespace StepReplay

/-! ## The name of a report -/

namespace Outcome

theorem slash_not_mem_reportName (name : Text) : Path.slash ∉ reportName name := by
  unfold reportName
  rw [List.mem_append, not_or]
  refine ⟨fun member => ?_, by decide⟩
  obtain ⟨c, -, replaced⟩ := List.mem_map.1 member
  split at replaced
  · exact absurd replaced (by decide)
  · rename_i other
    exact other replaced

theorem reportName_ne_nil (name : Text) : reportName name ≠ [] := by
  unfold reportName
  simp [Text.ofString]

end Outcome

namespace Plan

open Attempt

variable {σ : Type}

/-! ## What is written -/

/-- The cases that failed, each with its outcome. -/
def failing (fs : List Fixture) (os : List Outcome) : List (Fixture × Outcome) :=
  (fs.zip os).filter fun c => !c.2.clean

/-- The name that a case gives to its report. -/
def reportOf (c : Fixture × Outcome) : Text :=
  Outcome.reportName c.1.name

/-- What a case writes into its report. -/
def contentOf (c : Fixture × Outcome) : Bytes :=
  (Utf8.encode? (c.2.report c.1).report).getD []

/-- The entry of the work directory that a case makes with its report. -/
def entryOf (c : Fixture × Outcome) : Text × FileTree :=
  (reportOf c, .file (contentOf c))

variable {plan : Plan σ}

theorem find_of_reports {f : Fixture} {o : Outcome} {before after : Disk}
    {entries : List (Text × FileTree)}
    (found : before.find plan.workDirectory = .ok (.directory entries))
    (h : plan.Reports f o before after) :
    Utf8.encode? (o.report f).report = some (contentOf (f, o)) ∧
      after.find plan.workDirectory =
        .ok (.directory (Table.put (reportOf (f, o)) (.file (contentOf (f, o))) entries)) := by
  obtain ⟨content, encoded, written⟩ := h
  have same : contentOf (f, o) = content := by rw [contentOf, encoded]; rfl
  rw [same]
  exact ⟨encoded, Disk.find_writeFile (Outcome.slash_not_mem_reportName _)
    (Outcome.reportName_ne_nil _) found written⟩

variable [Environment σ]

/-- The cases of a run put the reports of those that fail into the work directory. -/
theorem performAll_files {fs : List Fixture} {p q : Progress σ} {u : Unit}
    {entries : List (Text × FileTree)}
    (found : p.disk.find plan.workDirectory = .ok (.directory entries))
    (h : (plan.performAll fs).start p = (.ok u, q)) :
    ∃ os, q.outcomes = p.outcomes ++ os ∧ os.length = fs.length ∧
      (∀ c ∈ failing fs os, Utf8.encode? (c.2.report c.1).report = some (contentOf c)) ∧
      q.disk.find plan.workDirectory =
        .ok (.directory (Table.putAll ((failing fs os).map entryOf) entries)) := by
  induction fs generalizing p entries with
  | nil =>
    cases h
    exact ⟨[], (List.append_nil _).symm, rfl, List.forall_mem_nil _, found⟩
  | cons f fs ih =>
    obtain ⟨_, between, performed, h⟩ := start_bind_eq_ok.1 h
    obtain ⟨o, -, noted, settled⟩ := performCase_eq_ok performed
    have grown (os : List Outcome) : p.outcomes ++ o :: os = between.outcomes ++ os := by
      rw [noted, List.append_assoc, List.singleton_append]
    unfold Settles at settled
    cases error : o.error with
    | none =>
      -- a clean case leaves the disk alone
      rw [error] at settled
      have kept : between.disk.find plan.workDirectory = .ok (.directory entries) := by
        rw [show between.disk = p.disk from settled, found]
      obtain ⟨os, all, count, encoded, after⟩ := ih kept h
      have same : failing (f :: fs) (o :: os) = failing fs os := by
        simp [failing, Outcome.clean, error]
      rw [← same] at encoded after
      exact ⟨o :: os, by rw [grown, all], by rw [List.length_cons, count]; rfl, encoded, after⟩
    | some e =>
      -- a failing case puts one entry, which later cases may replace
      rw [error] at settled
      obtain ⟨written, put⟩ := find_of_reports found settled
      obtain ⟨os, all, count, encoded, after⟩ := ih put h
      have more : failing (f :: fs) (o :: os) = (f, o) :: failing fs os := by
        simp [failing, Outcome.clean, error]
      refine ⟨o :: os, by rw [grown, all], by rw [List.length_cons, count]; rfl, ?_, ?_⟩
      · rw [more]
        exact List.forall_mem_cons.2 ⟨written, encoded⟩
      · rw [more, List.map_cons, Table.putAll_cons]
        exact after

omit [Environment σ] in
/-- A work directory that was empty or was not there is empty when the first case begins. -/
theorem find_opening {p q : Progress σ} {u : Unit} (h : plan.opening.start p = (.ok u, q))
    (before : p.disk.find plan.workDirectory = .ok (.directory []) ∨
      p.disk.holds plan.workDirectory = false ∧
        (Path.cutEntry plan.workDirectory).2 ≠ Path.dot) :
    q.disk.find plan.workDirectory = .ok (.directory []) := by
  obtain ⟨disk, made, rfl⟩ := opening_eq_ok h
  simp only [makeWorkDirectory, start_bind, start_get] at made
  rcases before with empty | ⟨missing, proper⟩
  · have present : p.disk.holds plan.workDirectory = true := by
      rw [Disk.holds, empty]
      rfl
    simp only [present, Bool.not_true, Bool.false_eq_true, ↓reduceIte, start_pure,
      Prod.mk.injEq, true_and] at made
    rwa [congrArg Progress.disk made] at empty
  · simp only [missing, Bool.not_false, ↓reduceIte, start_bind, start_set] at made
    rcases ran : p.disk.makeDirectories Disk.depthLimit plan.workDirectory with ⟨d, _ | e⟩
    · simp only [ran, start_pure, Prod.mk.injEq, Progress.mk.injEq, true_and] at made
      have empty := Disk.find_makeDirectories ran proper
      rwa [made] at empty
    · rw [ran] at made
      cases made

/-! ## What is found -/

/-- What the work directory holds for some cases that failed. -/
structure Reported (cases : List (Fixture × Outcome)) (entries : List (Text × FileTree)) :
    Prop where
  encoded : ∀ c ∈ cases, Utf8.encode? (c.2.report c.1).report = some (contentOf c)
  /-- A file is there just when it is the report of the last case that gives its name. -/
  file : ∀ name found, Table.find? name entries = some found ↔
    ∃ before c after, cases = before ++ c :: after ∧ reportOf c = name ∧
      found = .file (contentOf c) ∧ ∀ later ∈ after, reportOf later ≠ name
  /-- No case is without a file, and no file without a case. -/
  names : ∀ name, name ∈ entries.map Prod.fst ↔ ∃ c ∈ cases, reportOf c = name
  distinct : (entries.map Prod.fst).Nodup
  /-- There are as many files as failing cases just when no two of these share a name. -/
  count : entries.length ≤ cases.length ∧
    (entries.length = cases.length ↔ (cases.map reportOf).Nodup)
  /-- If no two share a name, then each case finds its own report. -/
  own : (cases.map reportOf).Nodup →
    ∀ c ∈ cases, Table.find? (reportOf c) entries = some (.file (contentOf c))

theorem keys_entryOf (cases : List (Fixture × Outcome)) :
    (cases.map entryOf).map Prod.fst = cases.map reportOf := by
  rw [List.map_map]
  rfl

theorem find?_reports {cases : List (Fixture × Outcome)} {name : Text} {found : FileTree} :
    Table.find? name (Table.putAll (cases.map entryOf) []) = some found ↔
      ∃ before c after, cases = before ++ c :: after ∧ reportOf c = name ∧
        found = .file (contentOf c) ∧ ∀ later ∈ after, reportOf later ≠ name := by
  rw [Table.find?_putAll]
  constructor
  · rintro (⟨before, after, parts, last⟩ | ⟨-, ⟨⟩⟩)
    obtain ⟨front, rest, rfl, rfl, behind⟩ := List.map_eq_append_iff.1 parts
    obtain ⟨c, back, rfl, here, rfl⟩ := List.map_eq_cons_iff.1 behind
    cases here
    rw [keys_entryOf] at last
    exact ⟨front, c, back, rfl, rfl, rfl, fun later member same =>
      last (List.mem_map.2 ⟨later, member, same⟩)⟩
  · rintro ⟨before, c, after, rfl, rfl, rfl, last⟩
    refine .inl ⟨before.map entryOf, after.map entryOf, by simp [entryOf], ?_⟩
    rw [keys_entryOf, List.mem_map]
    rintro ⟨later, member, same⟩
    exact last later member same

theorem reported {cases : List (Fixture × Outcome)}
    (encoded : ∀ c ∈ cases, Utf8.encode? (c.2.report c.1).report = some (contentOf c)) :
    Reported cases (Table.putAll (cases.map entryOf) []) where
  encoded := encoded
  file name found := find?_reports
  names name := by
    rw [Table.mem_keys_putAll, List.map_nil, or_iff_left List.not_mem_nil, keys_entryOf,
      List.mem_map]
  distinct := Table.nodup_keys_putAll _
  count := by
    have := Table.length_putAll (cases.map entryOf)
    rwa [keys_entryOf, List.length_map] at this
  own distinct c member := by
    obtain ⟨before, after, rfl⟩ := List.append_of_mem member
    refine find?_reports.2 ⟨before, c, after, rfl, rfl, rfl, fun later there same => ?_⟩
    rw [List.map_append, List.map_cons, List.nodup_append] at distinct
    exact (List.nodup_cons.1 distinct.2.1).1 (List.mem_map.2 ⟨later, there, same⟩)

/-- What a run that comes to its end leaves in its work directory, if that was empty when the first
case began: for every name of a failing case the report of the last one of that name. -/
theorem run_reports {p q : Progress σ} {clean : Bool}
    (empty : (plan.opening.start p).2.disk.find plan.workDirectory = .ok (.directory []))
    (h : plan.run.start p = (.ok clean, q)) :
    q.outcomes.length = plan.corpus.length ∧
      ∃ entries, q.disk.find plan.workDirectory = .ok (.directory entries) ∧
        Reported (failing plan.corpus q.outcomes) entries := by
  obtain ⟨disk, last, printed, -, opened, performed, -, rfl⟩ := run_eq_ok h
  rw [opened] at empty
  obtain ⟨os, all, count, encoded, after⟩ := performAll_files empty performed
  have outcomes : last.outcomes = os := all
  subst outcomes
  exact ⟨count, _, after, reported encoded⟩

/-- A plan of two cases without an engine, whose names differ in a slash and an underscore. -/
def clashingPlan : Plan (Option Scripted) where
  corpus := [{ name := "a/b", witness := { state := Block.zero 226 } },
    { name := "a_b", witness := { state := Block.zero 226 } }]
  factory _ := none
  bindings := { creation := [], oracle := [] }

set_option maxRecDepth 20000 in
theorem run_reports_clashingPlan : ∃ q, clashingPlan.run.start {} = (.ok false, q) ∧
    (clashingPlan.opening.start {}).2.disk.find clashingPlan.workDirectory = .ok (.directory []) ∧
    q.outcomes.length = clashingPlan.corpus.length ∧
      ∃ entries, q.disk.find clashingPlan.workDirectory = .ok (.directory entries) ∧
        Reported (failing clashingPlan.corpus q.outcomes) entries := by
  have ended : (clashingPlan.run.start {}).1.toOption = some false := by cbv
  rcases ran : clashingPlan.run.start {} with ⟨_ | _ | _, q⟩ <;> rw [ran] at ended <;>
    try cases ended
  obtain ⟨disk, -, -, -, opened, -⟩ := run_eq_ok ran
  have empty : (clashingPlan.opening.start {}).2.disk.find clashingPlan.workDirectory =
      .ok (.directory []) := by
    rw [opened]
    exact find_opening opened (.inr ⟨by decide +kernel, by decide +kernel⟩)
  exact ⟨q, rfl, empty, run_reports empty ran⟩

end Plan

end StepReplay
