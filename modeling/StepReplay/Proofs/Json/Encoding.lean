import StepReplay.Proofs.Json.RoundTrip
import StepReplay.Proofs.Text
import StepReplay.Proofs.Utf8

set_option autoImplicit false

/-! # Documents in bytes

A document can be written to a file unless it holds half of a surrogate pair as it is. Escapes hold
none, so in a style of ASCII every document can be written, and in any other one those whose texts
can be. -/

namespace StepReplay

/-- A text without halves of surrogate pairs. -/
def Text.Whole (t : Text) : Prop :=
  ∀ c ∈ t, c.isSurrogate = false

theorem Text.Whole.append {s t : Text} (first : s.Whole) (last : t.Whole) : (s ++ t).Whole :=
  List.forall_mem_append.2 ⟨first, last⟩

theorem Text.whole_of_ascii {t : Text} (ascii : ∀ c ∈ t, c.val < 0x80) : t.Whole := by
  intro c member
  have := ascii c member
  rw [CodePoint.isSurrogate, Bool.and_eq_false_iff, decide_eq_false_iff_not]
  exact .inl (by omega)

/-- Fixed wording is looked through. -/
theorem Text.whole_of_all {t : Text} (plain : t.all (!·.isSurrogate) = true) : t.Whole :=
  fun c member => by simpa using List.all_eq_true.1 plain c member

theorem Text.whole_joined {separator : Text} {row : List Text} (between : separator.Whole)
    (each : ∀ t ∈ row, Text.Whole t) : (Text.joined separator row).Whole :=
  Text.forall_mem_joined between each

theorem Text.whole_iff_encode? {t : Text} : t.Whole ↔ (Utf8.encode? t).isSome = true :=
  Utf8.isSome_encode?_iff.symm

theorem Decimal.whole_ofNat (n : Nat) : (ofNat n).Whole :=
  Text.whole_of_ascii fun _ => ascii_of_mem_ofNat

namespace Hex

theorem whole_ofNat (width n : Nat) : (ofNat width n).Whole := by
  have digit : ∀ d < 16, (ofDigit d).isSurrogate = false := by decide
  induction width generalizing n with
  | zero => simp [ofNat, Text.Whole]
  | succ width ih =>
    refine (ih (n / 16)).append fun c member => ?_
    rw [List.mem_singleton.1 member]
    exact digit _ (Nat.mod_lt _ (by decide))

end Hex

namespace Json

/-! ## Texts -/

theorem whole_escapePoint (c : CodePoint) : (escapePoint c).Whole := by
  have unit (n : Nat) : (escapeUnit n).Whole := by
    have mark : (Text.ofString "\\u").Whole := Text.whole_of_all rfl
    exact mark.append (Hex.whole_ofNat 4 n)
  unfold escapePoint
  split
  · exact unit c.val
  · exact (unit _).append (unit _)

/-- An escape holds no half of a pair, and what is not escaped is what it was. -/
theorem whole_escape {ascii : Bool} {c : CodePoint} (h : ascii = true ∨ c.isSurrogate = false) :
    (escape ascii c).Whole := by
  unfold escape
  split
  · rename_i same
    rcases same with rfl | rfl
    · exact Text.whole_of_all rfl
    · exact Text.whole_of_all rfl
  split
  · exact Text.whole_of_all rfl
  split
  · exact Text.whole_of_all rfl
  split
  · exact Text.whole_of_all rfl
  split
  · exact Text.whole_of_all rfl
  split
  · exact Text.whole_of_all rfl
  split
  · exact whole_escapePoint c
  · rename_i visible
    rw [not_or, not_and] at visible
    intro d member
    rw [List.mem_singleton.1 member]
    rcases h with strict | whole
    · have := visible.2 strict
      rw [CodePoint.isSurrogate, Bool.and_eq_false_iff, decide_eq_false_iff_not]
      exact .inl (by omega)
    · exact whole

theorem whole_writeString {ascii : Bool} {t : Text} (h : ascii = true ∨ t.Whole) :
    (writeString ascii t).Whole := by
  have quote : (Text.ofString "\"").Whole := Text.whole_of_all rfl
  refine (quote.append fun d member => ?_).append quote
  obtain ⟨c, here, escaped⟩ := List.mem_flatMap.1 member
  exact whole_escape (h.imp_right fun whole => whole c here) d escaped

/-! ## Values -/

theorem whole_ofInt (n : Int) : (Decimal.ofInt n).Whole := by
  cases n with
  | ofNat m => exact Decimal.whole_ofNat m
  | negSucc m =>
    have sign : (Text.ofString "-").Whole := Text.whole_of_all rfl
    exact sign.append (Decimal.whole_ofNat (m + 1))

theorem whole_of_isGap {t : Text} (blank : ∀ c ∈ t, isGap c = true) : t.Whole := by
  intro c member
  have value := blank c member
  simp only [isGap, Bool.or_eq_true, beq_iff_eq] at value
  rw [CodePoint.isSurrogate, Bool.and_eq_false_iff, decide_eq_false_iff_not]
  exact .inl (by omega)

theorem whole_bracket {style : Style} {level : Nat} {opening closing : Text} {row : List Text}
    (first : opening.Whole) (last : closing.Whole) (each : ∀ t ∈ row, Text.Whole t) :
    (style.bracket level opening closing row).Whole := by
  have newline (level : Nat) : (style.newline level).Whole :=
    whole_of_isGap fun c => isGap_of_mem_newline
  have separator : (style.separator (level + 1)).Whole := by
    obtain ⟨gap, comma, blank⟩ := separator_eq style (level + 1)
    rw [comma]
    exact List.forall_mem_cons.2 ⟨rfl, whole_of_isGap blank⟩
  unfold Style.bracket
  split
  · exact first.append last
  · exact (((first.append (newline _)).append (Text.whole_joined separator each)).append
      (newline _)).append last

/-- A built value can be written where its texts can. -/
theorem Built.whole_write {accepts : Text → Prop} {style : Style} {depth : Nat} {j : Json}
    (built : Built accepts depth j) (whole : ∀ t, accepts t → style.ascii = true ∨ t.Whole)
    (level : Nat) : (j.write style level).Whole := by
  induction built generalizing level with
  | null => exact Text.whole_of_all rfl
  | bool b => cases b <;> exact Text.whole_of_all rfl
  | int few => exact whole_ofInt _
  | string accepted => exact whole_writeString (whole _ accepted)
  | array each ih =>
    rw [write, writeItems_eq_map]
    refine whole_bracket (Text.whole_of_all rfl) (Text.whole_of_all rfl) (List.forall_mem_map.2 fun item member => ?_)
    exact ih item member (level + 1)
  | @object depth fields keys each distinct ih =>
    rw [write, writeFields_eq_map, style.arrange_map, List.map_map]
    refine whole_bracket (Text.whole_of_all rfl) (Text.whole_of_all rfl) (List.forall_mem_map.2 fun f member => ?_)
    have here := (style.arrange_perm fields).mem_iff.1 member
    exact ((whole_writeString (whole _ (keys f here))).append (Text.whole_of_all rfl)).append
      (ih f here (level + 1))

/-! ## Files -/

/-- The bytes are a document of a value. -/
def Holds (content : List UInt8) (j : Json) : Prop :=
  ∃ t, Utf8.decode? content = some t ∧ Json.read t = .ok j

/-- A style takes a text that can be written in it and read back: in ASCII one in which no two
halves of a surrogate pair are neighbours, otherwise one that holds no halves at all. -/
def Style.Takes (style : Style) (t : Text) : Prop :=
  if style.ascii = true then Unpaired t else t.Whole

theorem Style.Takes.unpaired {style : Style} {t : Text} (takes : style.Takes t)
    (ascii : style.ascii = true) : Unpaired t := by
  rwa [Takes, if_pos ascii] at takes

theorem Style.Takes.whole {style : Style} {t : Text} (takes : style.Takes t) :
    style.ascii = true ∨ t.Whole := by
  unfold Takes at takes
  split at takes
  · exact .inl ‹_›
  · exact .inr takes

theorem unpaired_of_whole {t : Text} (whole : t.Whole) : Unpaired t := by
  induction t with
  | nil => exact .nil
  | cons c t ih =>
    obtain ⟨here, others⟩ := List.forall_mem_cons.1 whole
    refine (ih others).cons fun d _ high => ?_
    rw [isHighSurrogate, Bool.and_eq_true, decide_eq_true_eq, decide_eq_true_eq] at high
    rw [CodePoint.isSurrogate, Bool.and_eq_false_iff, decide_eq_false_iff_not,
      decide_eq_false_iff_not] at here
    omega

theorem Style.takes_of_ascii (style : Style) {t : Text} (ascii : ∀ c ∈ t, c.val < 0x80) :
    style.Takes t := by
  have whole := Text.whole_of_ascii ascii
  unfold Takes
  split
  · exact unpaired_of_whole whole
  · exact whole

/-- A built value can be written to a file, and the file holds it. -/
theorem Built.holds {style : Style} {j : Json} (built : Built style.Takes depthLimit j) :
    ∃ content, Utf8.encode? (j.write style 0) = some content ∧ Holds content (j.arranged style) := by
  obtain ⟨content, bytes⟩ := Option.isSome_iff_exists.1
    (Text.whole_iff_encode?.1 (built.whole_write (fun _ takes => takes.whole) 0))
  exact ⟨content, bytes, _, Utf8.decode?_encode? bytes,
    built.read_write fun _ takes ascii => takes.unpaired ascii⟩

end Json

end StepReplay
