import StepReplay.Proofs.Reportable
import StepReplay.Proofs.Verdict

set_option autoImplicit false

/-! # Replaying a case from its report

A report holds the fixture of the case beside what became of it. Its text is read back as a document
with the same fields, whatever the names and messages in it are, so the case can be replayed from the
report alone. Whether the report can also be written is a matter of its texts and of the disk. -/

namespace StepReplay

open Json

namespace Failure

/-- The kind says whether fingerprints are compared. -/
theorem kind_eq_mismatch_iff (e : Failure) :
    e.kind = "FingerprintMismatch" ↔ e.mismatch?.isSome = true := by
  have same : decide (e.kind = "FingerprintMismatch") = e.mismatch?.isSome := by
    cases e with
    | decode d => cases d <;> rfl
    | _ => rfl
  rw [← same, decide_eq_true_iff]

theorem ascii_kind (e : Failure) : e.kind.all (·.val < 0x80) = true := by
  cases e with
  | decode d => cases d <;> rfl
  | _ => rfl

end Failure

namespace Outcome

/-! ## The fields of a report -/

/-- The keys of the fields of a failure. -/
def failureKeys : List Text := ["errorType", "error", "expected", "actual"]

/-- The keys that a report may have. -/
def keys : List Text := "name" :: "stateHash" :: (failureKeys ++ [Text.ofString "fixture"])

variable {o : Outcome} {e : Failure}

theorem keys_failureFields (e : Failure) : ((failureFields e).map Prod.fst).Sublist failureKeys := by
  unfold failureFields
  cases e.mismatch? with
  | none => exact List.sublist_append_left [("errorType" : Text), "error"] ["expected", "actual"]
  | some => exact .refl _

theorem keys_report (o : Outcome) (f : Fixture) :
    ((o.fields.concat ("fixture", f.toJson)).map Prod.fst).Sublist keys := by
  obtain ⟨name, hash, error⟩ := o
  have failed : (((error.map failureFields).getD []).map Prod.fst ++
      [Text.ofString "fixture"]).Sublist (failureKeys ++ [Text.ofString "fixture"]) := by
    refine List.Sublist.append_right ?_ _
    cases error with
    | none => exact List.nil_sublist _
    | some e => exact keys_failureFields e
  unfold fields
  rw [List.concat_eq_append, List.map_append, List.map_append, List.append_assoc]
  cases hash with
  | none => exact (failed.cons _).cons_cons _
  | some hash => exact (failed.cons_cons _).cons_cons _

theorem field?_report (failed : o.error = some e) (f : Fixture) :
    (o.report f).field? "name" = some (.string o.name) ∧
      (o.report f).field? "stateHash" = o.stateHash.map (fun h => .string (hexText h.bytes)) ∧
      (o.report f).field? "errorType" = some (.string e.kind) ∧
      (o.report f).field? "error" = some (.string e.message) ∧
      (o.report f).field? "expected" = e.mismatch?.map (fun m => .string (hexText m.1.bytes)) ∧
      (o.report f).field? "actual" = e.mismatch?.map (fun m => .string (hexText m.2.bytes)) ∧
      (o.report f).field? "fixture" = some f.toJson := by
  obtain ⟨name, hash, error⟩ := o
  cases failed
  unfold report fields
  dsimp only [Option.map_some, Option.getD_some, failureFields]
  generalize e.mismatch? = compared
  cases hash <;> cases compared <;> exact ⟨rfl, rfl, rfl, rfl, rfl, rfl, rfl⟩

theorem text_of_mem_failureFields {accepts : Text → Prop} (ascii : AcceptsAscii accepts)
    (message : accepts e.message) :
    ∀ field ∈ failureFields e, ∃ t, field.2 = .string t ∧ accepts t := by
  unfold failureFields
  refine List.forall_mem_cons.2 ⟨⟨_, rfl, ascii _ e.ascii_kind⟩, ?_⟩
  refine List.forall_mem_cons.2 ⟨⟨_, rfl, message⟩, ?_⟩
  cases e.mismatch? with
  | none => exact List.forall_mem_nil _
  | some compared =>
    refine List.forall_mem_cons.2 ⟨⟨_, rfl, ascii.hexText _⟩, ?_⟩
    exact List.forall_mem_cons.2 ⟨⟨_, rfl, ascii.hexText _⟩, List.forall_mem_nil _⟩

theorem text_of_mem_fields {accepts : Text → Prop} (ascii : AcceptsAscii accepts)
    (name : accepts o.name) (messages : ∀ e, o.error = some e → accepts e.message) :
    ∀ field ∈ o.fields, ∃ t, field.2 = .string t ∧ accepts t := by
  unfold fields
  refine List.forall_mem_cons.2 ⟨⟨_, rfl, name⟩, List.forall_mem_append.2 ⟨?_, ?_⟩⟩
  · cases o.stateHash with
    | none => exact List.forall_mem_nil _
    | some hash => exact List.forall_mem_cons.2 ⟨⟨_, rfl, ascii.hexText _⟩, List.forall_mem_nil _⟩
  · cases failed : o.error with
    | none => exact List.forall_mem_nil _
    | some e => exact text_of_mem_failureFields ascii (messages e failed)

/-- A report is built of its texts and the fixture. -/
theorem built_report {accepts : Text → Prop} (ascii : AcceptsAscii accepts) (depth : Nat)
    (name : accepts o.name) (messages : ∀ e, o.error = some e → accepts e.message) (f : Fixture) :
    Built accepts (depth + 3) (o.report f) := by
  have known : keys.all (·.all (·.val < 0x80)) = true := by decide
  refine .object (fun field member => ?_) ?_ ((keys_report o f).nodup (by decide))
  · exact ascii _ (List.all_eq_true.1 known field.1
      ((keys_report o f).subset (List.mem_map_of_mem member)))
  · rw [List.concat_eq_append, List.forall_mem_append]
    constructor
    · intro field member
      obtain ⟨t, text, accepted⟩ := text_of_mem_fields ascii name messages field member
      exact text ▸ .string accepted
    · exact List.forall_mem_singleton.2 (f.built_toJson ascii depth)

/-! ## A report read back -/

/-- A fingerprint has a field of a document just when it is there, and is read from it. -/
def Tells (r : Json) (key : Text) (hash : Option Hash) : Prop :=
  (r.field? key).map (Block.read 32) = hash.map .ok

/-- A document from which a failed case can be replayed, and which says what became of it. -/
structure Replays (r : Json) (f : Fixture) (o : Outcome) (e : Failure) : Prop where
  fixture : ∃ j, r.field? "fixture" = some j ∧ Fixture.ofJson f.name j = .ok f
  name : r.field? "name" = some (.string o.name)
  kind : r.field? "errorType" = some (.string e.kind)
  message : r.field? "error" = some (.string e.message)
  stateHash : Tells r "stateHash" o.stateHash
  expected : Tells r "expected" (e.mismatch?.map Prod.fst)
  actual : Tells r "actual" (e.mismatch?.map Prod.snd)

theorem tells_of_field {r : Json} {key : Text} {hash : Option Hash}
    (field : r.field? key = hash.map fun h => .string (hexText h.bytes)) : Tells r key hash := by
  rw [Tells, field, Option.map_map]
  exact congrArg (Option.map · hash) (funext Block.read_hexText)

/-- The order in which the fields of a report are written is of no account. -/
theorem replays_arranged (style : Style) (failed : o.error = some e) (f : Fixture) :
    Replays ((o.report f).arranged style) f o e := by
  obtain ⟨name, hash, kind, message, expected, actual, fixture⟩ := field?_report failed f
  have field (key : Text) : ((o.report f).arranged style).field? key =
      ((o.report f).field? key).map (arranged style) :=
    field?_arranged style ((keys_report o f).nodup (by decide)) key
  have text (t : Text) : (Json.string t).arranged style = .string t := by rw [arranged.eq_def]
  have texts {α : Type} (part : Option α) (g : α → Text) :
      (part.map fun a => Json.string (g a)).map (arranged style) =
        part.map fun a => .string (g a) := by
    cases part with
    | none => rfl
    | some a => exact congrArg some (text _)
  refine ⟨⟨f.toJson.arranged style, ?_, f.ofJson_arranged style f.name⟩, ?_, ?_, ?_, ?_, ?_, ?_⟩
  · rw [field, fixture, Option.map_some]
  · rw [field, name, Option.map_some, text]
  · rw [field, kind, Option.map_some, text]
  · rw [field, message, Option.map_some, text]
  · exact tells_of_field (by rw [field, hash, texts])
  · exact tells_of_field (by rw [field, expected, texts, Option.map_map]; rfl)
  · exact tells_of_field (by rw [field, actual, texts, Option.map_map]; rfl)

/-- The text of a report is a document, whatever the texts in it are. -/
theorem read_report (o : Outcome) (f : Fixture) :
    Json.read (o.report f).report = .ok ((o.report f).arranged .report) := by
  have built : Built (fun _ => True) depthLimit (o.report f) :=
    built_report (fun _ _ => trivial) 986 trivial (fun _ _ => trivial) f
  exact built.read_write fun _ _ ascii => by cases ascii

/-- Where names and messages can be written, the report can, and its bytes hold the document. -/
theorem holds_report (name : o.name.Whole) (messages : ∀ e, o.error = some e → e.message.Whole)
    (f : Fixture) : ∃ content, Utf8.encode? (o.report f).report = some content ∧
      Json.Holds content ((o.report f).arranged .report) := by
  have built : Built Style.report.Takes depthLimit (o.report f) :=
    built_report Style.report.acceptsAscii_takes 986 name messages f
  exact built.holds

end Outcome

namespace Plan

open Attempt

variable {σ : Type}

/-! ## Writing a report -/

/-- A report that is written is the document of the case. -/
theorem holds_of_writeReport {plan : Plan σ} {f : Fixture} {o : Outcome} {before after : Progress σ}
    (written : (plan.writeReport f o).start before = (.ok (), after)) :
    ∃ content, Json.Holds content ((o.report f).arranged .report) ∧
      before.disk.writeFile (Path.entryText plan.workDirectory (Outcome.reportName f.name)) content
        = .ok after.disk := by
  obtain ⟨disk, changed, complete⟩ := plan.writeReport_changes f o before
  rw [written] at changed complete
  obtain rfl : after = _ := changed
  obtain ⟨content, encoded, write⟩ := complete rfl
  exact ⟨content, ⟨_, Utf8.decode?_encode? encoded, o.read_report f⟩, write⟩

/-- A report is not written for two reasons: a text that cannot be encoded, and the disk. -/
theorem fault_of_writeReport {plan : Plan σ} {f : Fixture} {o : Outcome} {before after : Progress σ}
    {fault : Fault} (stopped : (plan.writeReport f o).start before = (.error fault, after)) :
    (∃ e, fault = .file e) ∨ fault = .unencodable ∧
      (Utf8.encode? (Outcome.reportName f.name) = none ∨
        Utf8.encode? (o.report f).report = none) := by
  simp only [writeReport] at stopped
  split at stopped
  · simp only [changeDisk, start_bind, start_get] at stopped
    split at stopped
    · cases stopped
    · cases stopped
      exact .inl ⟨_, rfl⟩
  · rename_i unencodable
    cases stopped
    refine .inr ⟨rfl, ?_⟩
    cases name : Utf8.encode? (Outcome.reportName f.name) with
    | none => exact .inl rfl
    | some place =>
      cases text : Utf8.encode? (o.report f).report with
      | none => exact .inr rfl
      | some content => exact absurd text (unencodable place content name)

theorem whole_reportName {name : Text} (whole : name.Whole) : (Outcome.reportName name).Whole := by
  refine Text.Whole.append (fun c member => ?_) (Text.whole_of_all rfl)
  obtain ⟨d, here, replaced⟩ := List.mem_map.1 member
  subst replaced
  split
  · rfl
  · exact whole d here

variable [Environment σ]

/-- A case has the name of its fixture. -/
theorem name_of_outcome {f : Fixture} {result : Except Fault StepResult} {o : Outcome}
    (judged : f.outcome result = .ok o) : o.name = f.name := by
  unfold Fixture.outcome at judged
  split at judged <;> cases judged <;> rfl

/-- An outcome has a fingerprint just when the step returned, and then that of its result. -/
theorem stateHash_eq_some_iff {plan : Plan σ} {f : Fixture} {p : Progress σ} {o : Outcome}
    (judged : f.outcome (plan.stepCase f p).1 = .ok o) (hash : Hash) :
    o.stateHash = some hash ↔ ∃ env events result s, plan.Begins p env ∧
      (Step.execute plan.config f.witness).start ⟨env, events⟩ = (.ok result, s) ∧
        result.stateHash = hash := by
  rw [stateHash_of_outcome judged, attests_iff]
  constructor
  · rintro ⟨post, stepped⟩
    rcases plan.stepCase_cases f p with
      ⟨e, s, -, -, same⟩ | ⟨env, events, begins, r, s, ran, same⟩ <;> rw [same] at stepped
    · cases stepped
    · obtain rfl : r = _ := stepped
      exact ⟨env, events, _, s, begins, ran, rfl⟩
  · rintro ⟨env, events, ⟨_, post⟩, ⟨env', later⟩, begins, ran, rfl⟩
    obtain ⟨r, answers, carries⟩ := (Step.execute_iff events).1 ⟨later, ran⟩
    exact ⟨post, stepCase_eq_ok.2 ⟨env, env', r, begins, answers, carries⟩⟩

/-- Of a fixture only the witness counts for the step. -/
theorem stepCase_congr {plan : Plan σ} {f g : Fixture} {p : Progress σ}
    (same : f.witness = g.witness) : plan.stepCase f p = plan.stepCase g p := by
  simp only [stepCase, same]

variable [Candid σ]

/-- The report of a failed case reads as a document from which the case can be replayed and which
says what became of it: the fingerprint just where the step returned one, and what was compared just
where two fingerprints differ. To write it is never a failure of its own, and what is written is this
document. With engines that give their reasons in texts that can be written, only the disk can keep
the report of a case from being written. -/
theorem runCase_report {plan : Plan σ} {f : Fixture} {p q : Progress σ} {o : Outcome} {e : Failure}
    (ran : (plan.runCase f).start p = (.ok o, q)) (failed : o.error = some e) :
    ∃ r, Json.read (o.report f).report = .ok r ∧ Outcome.Replays r f o e ∧ o.name = f.name ∧
      (∀ hash, o.stateHash = some hash ↔ ∃ env events result s, plan.Begins p env ∧
        (Step.execute plan.config f.witness).start ⟨env, events⟩ = (.ok result, s) ∧
          result.stateHash = hash) ∧
      (e.kind = "FingerprintMismatch" ↔ e.mismatch?.isSome = true) ∧
      (∀ before after, (plan.writeReport f o).start before = (.ok (), after) →
        ∃ content, Json.Holds content r ∧
          before.disk.writeFile (Path.entryText plan.workDirectory (Outcome.reportName f.name))
            content = .ok after.disk) ∧
      (∀ before after fault, (plan.writeReport f o).start before = (.error fault, after) →
        ∀ failure, fault ≠ .failure failure) ∧
      (plan.CandidEngines p →
        (∀ expected actual, e.mismatch? = some (expected, actual) → expected ≠ actual) ∧
        (f.name.Whole → ∀ before after fault,
          (plan.writeReport f o).start before = (.error fault, after) → ∃ x, fault = .file x)) := by
  have judged : f.outcome (plan.stepCase f p).1 = .ok o := by
    rw [start_runCase, Prod.mk.injEq] at ran
    exact ran.1
  have name := name_of_outcome judged
  refine ⟨_, o.read_report f, Outcome.replays_arranged .report failed f, name,
    stateHash_eq_some_iff judged, e.kind_eq_mismatch_iff, fun before after => holds_of_writeReport,
    fun before after fault stopped failure => ?_, fun engines => ?_⟩
  · rcases fault_of_writeReport stopped with ⟨x, rfl⟩ | ⟨rfl, -⟩ <;> rintro ⟨⟩
  · have reportable := (engines.runCase ran).2 e failed
    refine ⟨reportable.differ, fun whole before after fault stopped => ?_⟩
    -- neither the name nor a message is in the way
    have place := Text.whole_iff_encode?.1 (whole_reportName whole)
    obtain ⟨content, encoded, -⟩ := o.holds_report (name ▸ whole)
      (fun e' failed' => by cases failed.symm.trans failed'; exact reportable.message) f
    rcases fault_of_writeReport stopped with file | ⟨-, unencodable | unencodable⟩
    · exact file
    · rw [unencodable] at place
      cases place
    · rw [unencodable] at encoded
      cases encoded

/-- A fixture of the state of zeros with a fingerprint that the state does not have. -/
def divergingFixture : Fixture :=
  { name := "diverging", witness := { state := Block.zero 226 }, postStateHash := some (Block.zero 32) }

theorem runCase_report_diverging : ∃ o q e r,
    (agreeingPlan.runCase divergingFixture).start {} = (.ok o, q) ∧ o.error = some e ∧
      agreeingPlan.CandidEngines {} ∧ Text.Whole divergingFixture.name ∧
      Json.read (o.report divergingFixture).report = .ok r ∧
      Outcome.Replays r divergingFixture o e ∧
      o.stateHash = some (State.hash (Block.zero 226)) ∧ e.kind = "FingerprintMismatch" ∧
      (∀ expected actual, e.mismatch? = some (expected, actual) → expected ≠ actual) ∧
      ∀ before after fault,
        (agreeingPlan.writeReport divergingFixture o).start before = (.error fault, after) →
          ∃ x, fault = .file x := by
  have other : Block.zero 32 ≠ State.hash (Block.zero 226) := by
    intro same
    have first : some (0 : UInt8) = some 3 := congrArg (·.bytes.head?) same
    cases first
  have engines : agreeingPlan.CandidEngines {} := by
    refine ⟨fun _ => ?_, by rintro _ ⟨⟩⟩
    exact List.forall_mem_cons.2 ⟨candid_of_no_reason rfl,
      List.forall_mem_cons.2 ⟨candid_of_no_reason rfl, List.forall_mem_nil _⟩⟩
  have stepped : (agreeingPlan.stepCase divergingFixture {}).1 =
      .ok ⟨State.hash (Block.zero 226), Block.zero 226⟩ := by
    obtain ⟨f, only⟩ : ∃ f, agreeingPlan.corpus = [f] := ⟨_, rfl⟩
    have same : divergingFixture.witness = f.witness := by cases only; rfl
    rw [stepCase_congr same, agreeingPlan_stepCase only]
  have judged : divergingFixture.outcome (agreeingPlan.stepCase divergingFixture {}).1 =
      .ok ⟨"diverging", some (State.hash (Block.zero 226)),
        some (.nativeMismatch (Block.zero 32) (State.hash (Block.zero 226)))⟩ := by
    rw [stepped]
    simp only [Fixture.outcome, Fixture.divergence?, divergingFixture, if_neg other]
  have ran := start_runCase agreeingPlan divergingFixture {}
  rw [judged] at ran
  obtain ⟨r, read, replays, -, -, -, -, -, told⟩ := runCase_report ran rfl
  exact ⟨_, _, _, r, ran, rfl, engines, Text.whole_of_all rfl, read, replays, rfl, rfl,
    (told engines).1, (told engines).2 (Text.whole_of_all rfl)⟩

end Plan

end StepReplay
