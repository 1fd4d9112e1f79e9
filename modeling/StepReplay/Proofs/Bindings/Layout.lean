import StepReplay.Bindings
import StepReplay.Proofs.Hex.Grammar
import StepReplay.Proofs.Utf8

set_option autoImplicit false

/-! # Bytecode laid out in any way

Hex text may have blanks around it, but none between its digits. A bytecode file is read without any
of its blanks, so there they may stand everywhere, also between the two digits of a byte or inside
the mark. `Spaced` says what it is to put blanks into a text, and `Denotes` which texts without
blanks stand for a code. A file is read as a code just when the code is `LaidOut` in it, and files
that differ by blanks only are read alike or refused in the same words. -/

namespace StepReplay

/-! ## Blanks put into a text -/

namespace Text

/-- `Spaced s t`: blanks put into `s`, anywhere and any number of them, make `t`. -/
inductive Spaced : Text → Text → Prop
  | nil : Spaced [] []
  | blank {c : CodePoint} {s t : Text} (blank : c.isBlank = true) (rest : Spaced s t) :
    Spaced s (c :: t)
  | keep (c : CodePoint) {s t : Text} (rest : Spaced s t) : Spaced (c :: s) (c :: t)

theorem withoutBlanks_cons (c : CodePoint) (t : Text) :
    withoutBlanks (c :: t) = if c.isBlank then t.withoutBlanks else c :: t.withoutBlanks := by
  cases blank : c.isBlank <;> simp [withoutBlanks, blank]

theorem spaced_withoutBlanks (t : Text) : Spaced t.withoutBlanks t := by
  induction t with
  | nil => exact .nil
  | cons c t ih =>
    rw [withoutBlanks_cons]
    split
    · rename_i blank
      exact .blank blank ih
    · exact .keep c ih

theorem Spaced.withoutBlanks_eq {s t : Text} (h : Spaced s t) :
    t.withoutBlanks = s.withoutBlanks := by
  induction h with
  | nil => rfl
  | blank blank _ ih => rw [withoutBlanks_cons, if_pos blank, ih]
  | keep c _ ih => rw [withoutBlanks_cons, withoutBlanks_cons, ih]

theorem Spaced.mem {s t : Text} (h : Spaced s t) {c : CodePoint} (member : c ∈ t) :
    c.isBlank = true ∨ c ∈ s := by
  induction h with
  | nil => simp at member
  | blank blank _ ih =>
    rcases List.mem_cons.1 member with rfl | later
    · exact .inl blank
    · exact ih later
  | keep d _ ih =>
    rcases List.mem_cons.1 member with rfl | later
    · exact .inr (List.mem_cons_self ..)
    · exact (ih later).imp_right (List.mem_cons_of_mem _)

end Text

/-! ## Digits of either case -/

namespace Hex

theorem mem_alphabet_of_lowercase {c : CodePoint} (h : c.lowercase ∈ alphabet) : c ∈ alphabet := by
  rw [mem_alphabet] at h ⊢
  unfold CodePoint.lowercase at h
  split at h
  · simp only [CodePoint.ofNat, Fin.val_ofNat] at h
    omega
  · exact h

/-- A row that has the digits of a byte string, each in either case, is made of pairs of digits. -/
theorem paired_of_lowercase {row : Text} {b : Bytes} (digits : row.lowercase = encode b) :
    Paired row := by
  have paired := (decode?_eq_some.1 (decode?_encode b)).1
  rw [← digits] at paired
  refine ⟨?_, fun c member => ?_⟩
  · simpa [Text.lowercase] using paired.even
  · exact mem_alphabet_of_lowercase (paired.digits _ (List.mem_map_of_mem member))

theorem decode?_eq_some_iff_lowercase {row : Text} {b : Bytes} :
    decode? row = some b ↔ row.lowercase = encode b := by
  rw [decode?_eq_some]
  constructor
  · intro read
    exact read.2.symm
  · intro digits
    exact ⟨paired_of_lowercase digits, digits.symm⟩

end Hex

/-! ## The text of a code -/

/-- `Denotes code t`: a text without blanks stands for a code. It has the digits of the code, each
in either case, and nothing or one mark in front of them. -/
inductive Denotes (code : Bytes) : Text → Prop
  | bare {row : Text} (digits : row.lowercase = Hex.encode code) : Denotes code row
  | small {row : Text} (digits : row.lowercase = Hex.encode code) : Denotes code ("0x" ++ row)
  | capital {row : Text} (digits : row.lowercase = Hex.encode code) : Denotes code ("0X" ++ row)

/-- `LaidOut code t`: a text stands for a code, with blanks put in anywhere. -/
def LaidOut (code : Bytes) (t : Text) : Prop :=
  ∃ s, Denotes code s ∧ Text.Spaced s t

variable {code : Bytes} {t : Text}

/-- The digits of a code do not start with a mark, whose letter is no digit. -/
theorem HexForm.unmarked_of_lowercase {row : Text} (digits : row.lowercase = Hex.encode code) :
    Unmarked row row := by
  have all := (Hex.paired_of_lowercase digits).digits
  have small : CodePoint.ofChar 'x' ∉ Hex.alphabet := by decide
  have capital : CodePoint.ofChar 'X' ∉ Hex.alphabet := by decide
  refine .bare _ (fun front => ?_) (fun front => ?_)
  · exact small (all _ (front.subset (by decide)))
  · exact capital (all _ (front.subset (by decide)))

theorem denotes_iff : Denotes code t ↔ Hex.decode? (HexForm.withoutMark t) = some code := by
  rw [Hex.decode?_eq_some_iff_lowercase]
  constructor
  · intro denotes
    cases denotes with
    | bare digits => rwa [HexForm.withoutMark_eq_iff.2 (HexForm.unmarked_of_lowercase digits)]
    | small digits => rwa [HexForm.withoutMark_eq_iff.2 (.small _)]
    | capital digits => rwa [HexForm.withoutMark_eq_iff.2 (.capital _)]
  · intro digits
    have unmarked : HexForm.Unmarked t (HexForm.withoutMark t) := HexForm.withoutMark_eq_iff.1 rfl
    generalize HexForm.withoutMark t = row at digits unmarked
    cases unmarked with
    | small => exact .small digits
    | capital => exact .capital digits
    | bare => exact .bare digits

/-- Neither a blank nor half of a surrogate pair. -/
def CodePoint.isPlain (c : CodePoint) : Bool :=
  !c.isBlank && !c.isSurrogate

theorem Denotes.plain (h : Denotes code t) : ∀ c ∈ t, c.isPlain = true := by
  have digit := List.all_eq_true.1 (by decide : Hex.alphabet.all CodePoint.isPlain = true)
  have small := List.all_eq_true.1 (by decide : (Text.ofString "0x").all CodePoint.isPlain = true)
  have capital := List.all_eq_true.1 (by decide : (Text.ofString "0X").all CodePoint.isPlain = true)
  have plain {row : Text} (digits : row.lowercase = Hex.encode code) :
      ∀ c ∈ row, c.isPlain = true := fun c member =>
    digit c ((Hex.paired_of_lowercase digits).digits c member)
  cases h with
  | bare digits => exact plain digits
  | small digits => exact List.forall_mem_append.2 ⟨small, plain digits⟩
  | capital digits => exact List.forall_mem_append.2 ⟨capital, plain digits⟩

/-- Where a code is laid out, nothing but blanks has to be taken away to get at its text. -/
theorem laidOut_iff : LaidOut code t ↔ Denotes code t.withoutBlanks := by
  constructor
  · rintro ⟨s, denotes, spaced⟩
    have kept : s.withoutBlanks = s :=
      List.filter_eq_self.2 fun c member => (Bool.and_eq_true_iff.1 (denotes.plain c member)).1
    rwa [spaced.withoutBlanks_eq, kept]
  · intro denotes
    exact ⟨_, denotes, t.spaced_withoutBlanks⟩

theorem LaidOut.exists_encode? (h : LaidOut code t) : ∃ content, Utf8.encode? t = some content := by
  obtain ⟨s, denotes, spaced⟩ := h
  rw [← Option.isSome_iff_exists, Utf8.isSome_encode?_iff]
  intro c member
  rcases spaced.mem member with blank | here
  · simp only [CodePoint.isBlank, Bool.or_eq_true, Bool.and_eq_true, decide_eq_true_eq,
      beq_iff_eq] at blank
    simp only [CodePoint.isSurrogate, Bool.and_eq_false_iff, decide_eq_false_iff_not]
    omega
  · simpa using (Bool.and_eq_true_iff.1 (denotes.plain c here)).2

/-- No text stands for two codes. -/
theorem LaidOut.unique {code' : Bytes} (h : LaidOut code t) (h' : LaidOut code' t) :
    code' = code := by
  rw [laidOut_iff, denotes_iff] at h h'
  rw [h] at h'
  exact (Option.some.inj h').symm

/-! ## Files -/

/-- What a text without its blanks is read as is the code that it stands for, if there is one. -/
theorem decode_withoutBlanks (t : Text) :
    (HexForm.decode {} t.withoutBlanks = .error (.notHex t.withoutBlanks) ∧
        ∀ code, ¬ LaidOut code t) ∨
      ∃ code, HexForm.decode {} t.withoutBlanks = .ok code ∧ LaidOut code t := by
  have unblank : ∀ c ∈ t.withoutBlanks, c.isBlank = false := by
    intro c member
    simpa using (List.mem_filter.1 member).2
  have digits : HexForm.digits t.withoutBlanks = HexForm.withoutMark t.withoutBlanks := by
    rw [HexForm.digits, Text.trim_of_not_blank unblank]
  simp only [laidOut_iff, denotes_iff, HexForm.decode, digits]
  cases Hex.decode? (HexForm.withoutMark t.withoutBlanks) with
  | none => simp
  | some code => exact .inr ⟨code, rfl, rfl⟩

/-- `ReadAs path t result`: how a bytecode file ends that holds a text. It has the code that is laid
out in it, unless that is empty or there is none. -/
structure ReadAs (path t : Text) (result : Except Fault Bytes) : Prop where
  code : ∀ code, result = .ok code ↔ code ≠ [] ∧ LaidOut code t
  empty : result = .error (.failure (.emptyCode path)) ↔ LaidOut [] t
  malformed : result = .error (.failure (.malformedCode path (.notHex t.withoutBlanks))) ↔
    ∀ code, ¬ LaidOut code t
  failure : ∀ e, result = .error e → ∃ f : Failure, e = .failure f ∧ f.kind = "DeploymentFailure"

theorem readAs_codeOfText (path t : Text) : ReadAs path t (codeOfText path t) := by
  unfold codeOfText
  rcases decode_withoutBlanks t with ⟨refused, none⟩ | ⟨code, read, here⟩
  · rw [refused]
    refine ⟨fun code => ?_, ?_, ?_, ?_⟩
    · simp [none code]
    · simp [none []]
    · simp [none]
    · rintro e ⟨⟩
      exact ⟨_, rfl, rfl⟩
  · rw [read]
    have only (code' : Bytes) : LaidOut code' t ↔ code' = code :=
      ⟨here.unique, fun same => same ▸ here⟩
    cases code with
    | nil =>
      refine ⟨fun code => ?_, ?_, ?_, ?_⟩
      · simp [only]
      · simp [only]
      · simp [only]
      · rintro e ⟨⟩
        exact ⟨_, rfl, rfl⟩
    | cons b rest =>
      refine ⟨fun code => ?_, ?_, ?_, ?_⟩
      · simp only [only, Except.ok.injEq]
        constructor
        · rintro rfl
          exact ⟨List.cons_ne_nil _ _, rfl⟩
        · rintro ⟨-, rfl⟩
          rfl
      · simp [only]
      · simp [only]
      · rintro e ⟨⟩

theorem readCode_of_text {disk : Disk} {path : Path} {content : Bytes}
    (there : disk.readFile path.text = .ok content) (text : Utf8.decode? content = some t) :
    readCode disk path = codeOfText path.text t := by
  rw [readCode, there]
  dsimp only
  rw [codeOfContent, text]

/-- A bytecode file may hold its code in any layout: the digits in either case, with or without a
mark, and blanks anywhere. No other text is read as a code, and two texts that are the same without
their blanks give the same code or fail with the same failure of a deployment. -/
theorem readCode_layout :
    (∀ (code : Bytes) (t : Text), code ≠ [] → LaidOut code t →
      ∃ content, Utf8.encode? t = some content ∧
        ∀ (disk : Disk) (path : Path), disk.readFile path.text = .ok content →
          readCode disk path = .ok code) ∧
    (∀ (disk : Disk) (path : Path) (content : Bytes) (t : Text),
      disk.readFile path.text = .ok content → Utf8.decode? content = some t →
        ReadAs path.text t (readCode disk path)) ∧
    ∀ (disk disk' : Disk) (path : Path) (content content' : Bytes) (t t' : Text),
      disk.readFile path.text = .ok content → Utf8.decode? content = some t →
      disk'.readFile path.text = .ok content' → Utf8.decode? content' = some t' →
        t.withoutBlanks = t'.withoutBlanks → readCode disk path = readCode disk' path := by
  refine ⟨?_, ?_, ?_⟩
  · intro code t some laid
    obtain ⟨content, written⟩ := laid.exists_encode?
    refine ⟨content, written, fun disk path there => ?_⟩
    rw [readCode_of_text there (Utf8.decode?_encode? written)]
    exact ((readAs_codeOfText path.text t).code code).2 ⟨some, laid⟩
  · intro disk path content t there text
    rw [readCode_of_text there text]
    exact readAs_codeOfText path.text t
  · intro disk disk' path content content' t t' there text there' text' same
    rw [readCode_of_text there text, readCode_of_text there' text', codeOfText, codeOfText, same]

/-- A disk with one file. -/
def codeDisk (content : Bytes) : Disk where
  root := .directory [("code", .file content)]

/-- Two bytes, with blanks inside their mark, between the halves of a byte and around the text. -/
def straggling : Text := "\t0\u3000X\r\n6\u00850 a\u2028B\n"

theorem laidOut_straggling : LaidOut [0x60, 0xAB] straggling :=
  laidOut_iff.2 (.capital (by decide : Text.lowercase "60aB" = Hex.encode [0x60, 0xAB]))

theorem readCode_layout_straggling :
    ∃ content content', Utf8.encode? straggling = some content ∧
      readCode (codeDisk content) (Path.ofText "code") = .ok [0x60, 0xAB] ∧
      Utf8.encode? "0X60aB" = some content' ∧
      readCode (codeDisk content') (Path.ofText "code") = .ok [0x60, 0xAB] := by
  obtain ⟨content, written, read⟩ :=
    readCode_layout.1 [0x60, 0xAB] straggling (by decide) laidOut_straggling
  have plain : Utf8.encode? "0X60aB" = some [0x30, 0x58, 0x36, 0x30, 0x61, 0x42] := by decide
  have here (content : Bytes) :
    (codeDisk content).readFile (Path.ofText "code").text = .ok content := by rfl
  have alike := readCode_layout.2.2 _ _ (Path.ofText "code") _ _ straggling "0X60aB" (here content)
    (Utf8.decode?_encode? written) (here _) (Utf8.decode?_encode? plain) (by decide)
  have first := read _ _ (here content)
  exact ⟨content, _, written, first, plain, alike ▸ first⟩

end StepReplay
