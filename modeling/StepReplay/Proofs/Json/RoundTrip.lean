import StepReplay.Proofs.Json.Scalar
import StepReplay.Proofs.Table
import StepReplay.Proofs.Text

set_option autoImplicit false

/-! # Documents read back

What the printer writes is read as the value that was written, up to the order of fields, which a
style may change (`arranged`). The reader goes down through arrays and objects with two counts, the
depth that is left and its fuel: a value that is `Built` stays within the depth, and its own text is
fuel enough, since each step of the reader leaves some of the text behind.

A bracketed list is read the same way whatever stands in it, so arrays and objects each have one
lemma about any row of texts of which each is read (`Reads`); the theorem on whole values is then an
induction on how the value is built. -/

namespace StepReplay.Json

/-! ## Blanks -/

theorem skipGap_append {gap : Text} (blank : ∀ c ∈ gap, isGap c = true) (t : Text) :
    skipGap (gap ++ t) = skipGap t :=
  List.dropWhile_append_of_pos blank

theorem skipGap_cons {c : CodePoint} (solid : isGap c = false) (t : Text) :
    skipGap (c :: t) = c :: t :=
  List.dropWhile_cons_of_neg (by simp [solid])

theorem isGap_of_mem_newline {style : Style} {level : Nat} {c : CodePoint}
    (h : c ∈ style.newline level) : isGap c = true := by
  unfold Style.newline at h
  split at h
  · rcases List.mem_append.1 h with line | indent
    · rw [List.mem_singleton.1 line]
      rfl
    · rw [(List.mem_replicate.1 indent).2]
      rfl
  · cases h

theorem separator_eq (style : Style) (level : Nat) :
    ∃ gap, style.separator level = CodePoint.ofChar ',' :: gap ∧ ∀ c ∈ gap, isGap c = true := by
  unfold Style.separator
  split
  · exact ⟨style.newline level, rfl, fun c => isGap_of_mem_newline⟩
  · refine ⟨[CodePoint.ofChar ' '], rfl, fun c blank => ?_⟩
    rw [List.mem_singleton.1 blank]
    rfl

/-- A blank goes on with no number. -/
theorem stops_of_isGap {c : CodePoint} (blank : isGap c = true) :
    isDigit c = false ∧ c ≠ CodePoint.ofChar '.' ∧ c ≠ CodePoint.ofChar 'e' ∧
      c ≠ CodePoint.ofChar 'E' := by
  simp only [isGap, Bool.or_eq_true, beq_iff_eq] at blank
  have here : c = CodePoint.ofNat 0x20 ∨ c = CodePoint.ofNat 0x09 ∨ c = CodePoint.ofNat 0x0A ∨
      c = CodePoint.ofNat 0x0D := by
    rcases blank with ((v | v) | v) | v
    · exact .inl (Fin.ext v)
    · exact .inr (.inl (Fin.ext v))
    · exact .inr (.inr (.inl (Fin.ext v)))
    · exact .inr (.inr (.inr (Fin.ext v)))
  rcases here with rfl | rfl | rfl | rfl <;> decide

/-- What stands behind a value stops it: a separator or a closing bracket, perhaps after blanks. -/
theorem Stops.of_gap {gap : Text} (blank : ∀ c ∈ gap, isGap c = true) {mark : CodePoint}
    (closing : mark = CodePoint.ofChar ',' ∨ mark = CodePoint.ofChar ']' ∨
      mark = CodePoint.ofChar '\x7d') (rest : Text) : Stops (gap ++ mark :: rest) := by
  intro c first
  cases gap with
  | nil =>
    cases first
    rcases closing with rfl | rfl | rfl <;> decide
  | cons b gap =>
    cases first
    exact stops_of_isGap (blank c (List.mem_cons_self ..))

theorem stops_nil : Stops [] := by
  rintro c ⟨⟩

theorem stops_comma (rest : Text) : Stops (CodePoint.ofChar ',' :: rest) :=
  Stops.of_gap (List.forall_mem_nil _) (.inl rfl) rest

/-! ## What one value takes -/

/-- A value or a key begins a text: neither a blank nor a closing bracket comes first. -/
def Begins (t : Text) : Prop :=
  ∃ c rest, t = c :: rest ∧ isGap c = false ∧ c ≠ CodePoint.ofChar ']' ∧ c ≠ CodePoint.ofChar '\x7d'

theorem Begins.skipGap {t : Text} (h : Begins t) (rest : Text) : skipGap (t ++ rest) = t ++ rest := by
  obtain ⟨c, t, rfl, solid, -⟩ := h
  exact skipGap_cons solid (t ++ rest)

theorem Begins.head?_ne {t : Text} (h : Begins t) (rest : Text) :
    (t ++ rest).head? ≠ some (CodePoint.ofChar ']') ∧
      (t ++ rest).head? ≠ some (CodePoint.ofChar '\x7d') := by
  obtain ⟨c, t, rfl, -, bracket, brace⟩ := h
  exact ⟨fun first => bracket (Option.some.inj first), fun first => brace (Option.some.inj first)⟩

/-- A text is read as a value wherever a value may stand. -/
structure Reads (depth : Nat) (text : Text) (value : Json) : Prop where
  begins : Begins text
  read : ∀ fuel rest, text.length ≤ fuel → Stops rest →
    readValue depth fuel (text ++ rest) = .ok (value, rest)

namespace Reads

variable {depth : Nat}

/-- A text that begins with no quote and no bracket is read as a scalar. -/
theorem of_readScalar {text : Text} {value : Json} (c : CodePoint) (t : Text) (parts : text = c :: t)
    (solid : isGap c = false)
    (plain : c ≠ CodePoint.ofChar '"' ∧ c ≠ CodePoint.ofChar '[' ∧ c ≠ CodePoint.ofChar ']' ∧
      c ≠ CodePoint.ofChar '\x7b' ∧ c ≠ CodePoint.ofChar '\x7d')
    (scalar : ∀ rest, Stops rest → readScalar (text ++ rest) = .ok (value, rest)) :
    Reads depth text value := by
  obtain ⟨quote, opening, closing, brace, end_⟩ := plain
  subst parts
  refine ⟨⟨c, t, rfl, solid, closing, end_⟩, ?_⟩
  rintro (_ | fuel) rest enough stops
  · cases enough
  · rw [List.cons_append, readValue, if_neg quote, if_neg opening, if_neg brace]
    exact scalar rest stops

theorem null : Reads depth "null" .null :=
  of_readScalar _ _ rfl (by decide) (by decide) fun _ _ => rfl

theorem bool (style : Style) (level : Nat) (b : Bool) :
    Reads depth ((Json.bool b).write style level) (.bool b) := by
  cases b with
  | true => exact of_readScalar _ _ rfl (by decide) (by decide) fun _ _ => rfl
  | false => exact of_readScalar _ _ rfl (by decide) (by decide) fun _ _ => rfl

theorem int {n : Int} (few : (Decimal.ofNat n.natAbs).length ≤ digitLimit) :
    Reads depth (Decimal.ofInt n) (.int n) := by
  have reads (c : CodePoint) (t : Text) (parts : Decimal.ofInt n = c :: t)
      (first : isDigit c = true ∨ c = CodePoint.ofChar '-') :
      Reads depth (Decimal.ofInt n) (.int n) := by
    have solid : isGap c = false := by
      cases blank : isGap c with
      | false => rfl
      | true =>
        rcases first with digit | rfl
        · rw [(stops_of_isGap blank).1] at digit
          cases digit
        · cases blank
    have other {a : Char} (h : isDigit (CodePoint.ofChar a) = false)
        (sign : CodePoint.ofChar a ≠ CodePoint.ofChar '-') : c ≠ CodePoint.ofChar a := by
      rintro rfl
      rcases first with digit | minus
      · rw [h] at digit
        cases digit
      · exact sign minus
    exact of_readScalar c t parts solid
      ⟨other rfl (by decide), other rfl (by decide), other rfl (by decide), other rfl (by decide),
        other rfl (by decide)⟩
      fun rest stops => readScalar_ofInt few stops
  cases n with
  | ofNat m =>
    cases digits : Decimal.ofNat m with
    | nil => exact absurd digits (Decimal.ofNat_ne_nil m)
    | cons c t =>
      refine reads c t digits (.inl (Decimal.digit?_of_mem_ofNat (n := m) ?_))
      rw [digits]
      exact List.mem_cons_self ..
  | negSucc m => exact reads _ _ rfl (.inr rfl)

/-- A key or a text between quotes. -/
theorem string {style : Style} {t : Text} (apart : style.ascii = true → Unpaired t) :
    Reads depth (writeString style.ascii t) (.string t) := by
  refine ⟨⟨CodePoint.ofChar '"', _, rfl, by decide⟩, ?_⟩
  rintro (_ | fuel) rest enough stops
  · cases enough
  · have text : writeString style.ascii t ++ rest =
        CodePoint.ofChar '"' :: (t.flatMap (escape style.ascii) ++ CodePoint.ofChar '"' :: rest) := by
      rw [writeString, List.append_assoc, List.append_assoc]
      rfl
    rw [text, readValue, if_pos rfl, readString_escapes apart]

end Reads

/-! ## Rows of values -/

section Rows

variable {α : Type} {depth : Nat} {text : α → Text} {value : α → Json} {space gap rest : Text}
  {fuel : Nat}

theorem joined_map_cons (separator : Text) (text : α → Text) (a b : α) (row : List α) :
    Text.joined separator ((a :: b :: row).map text) =
      text a ++ separator ++ Text.joined separator ((b :: row).map text) :=
  Text.joined_cons_cons ..

theorem begins_joined {separator : Text} {a : α} {row : List α}
    (each : ∀ item ∈ a :: row, Begins (text item)) :
    Begins (Text.joined separator ((a :: row).map text)) := by
  obtain ⟨c, t, parts, first⟩ := each a (List.mem_cons_self ..)
  cases row with
  | nil => exact ⟨c, t, parts, first⟩
  | cons b row =>
    rw [joined_map_cons, parts]
    exact ⟨c, _, rfl, first⟩

/-- The items of an array are read one after another, up to its closing bracket. -/
theorem itemsOnto_joined {a : α} {items : List α} {acc : List Json}
    (each : ∀ item ∈ a :: items, Reads depth (text item) (value item))
    (blankSpace : ∀ c ∈ space, isGap c = true) (blankGap : ∀ c ∈ gap, isGap c = true)
    (enough : (Text.joined (CodePoint.ofChar ',' :: space) ((a :: items).map text)).length < fuel) :
    itemsOnto depth acc fuel (Text.joined (CodePoint.ofChar ',' :: space) ((a :: items).map text) ++
        (gap ++ CodePoint.ofChar ']' :: rest)) =
      .ok (.array (acc.reverse ++ (a :: items).map value), rest) := by
  induction items generalizing a acc fuel with
  | nil =>
    obtain ⟨fuel, rfl⟩ : ∃ less, fuel = less + 1 := ⟨fuel - 1, by omega⟩
    have read := (each a (List.mem_cons_self ..)).read fuel (gap ++ CodePoint.ofChar ']' :: rest)
      (Nat.le_of_lt_succ enough) (.of_gap blankGap (.inr (.inl rfl)) rest)
    simp only [List.map_cons, List.map_nil, Text.joined]
    rw [itemsOnto, read]
    dsimp only
    rw [skipGap_append blankGap, skipGap_cons (by decide)]
    dsimp only
    rw [if_neg (by decide), if_pos rfl, List.reverse_cons]
  | cons b items ih =>
    obtain ⟨fuel, rfl⟩ : ∃ less, fuel = less + 1 := ⟨fuel - 1, by omega⟩
    obtain ⟨here, others⟩ := List.forall_mem_cons.1 each
    rw [joined_map_cons, List.length_append, List.length_append, List.length_cons] at enough
    have later : Begins (Text.joined (CodePoint.ofChar ',' :: space) ((b :: items).map text)) :=
      begins_joined fun item member => (others item member).begins
    rw [joined_map_cons, List.append_assoc, List.append_assoc, List.cons_append, itemsOnto,
      here.read fuel _ (by omega) (stops_comma _)]
    dsimp only
    rw [skipGap_cons (by decide)]
    dsimp only
    rw [if_pos rfl, skipGap_append blankSpace, later.skipGap, ih others (by omega),
      List.reverse_cons, List.append_assoc]
    rfl

/-- The written form of a field whose value has a written form. -/
def writeField (ascii : Bool) (text : α → Text) (field : Text × α) : Text :=
  writeString ascii field.1 ++ ": " ++ text field.2

theorem begins_writeField {ascii : Bool} (field : Text × α) :
    Begins (writeField ascii text field) :=
  ⟨CodePoint.ofChar '"', _, rfl, by decide⟩

theorem length_text_le (ascii : Bool) (field : Text × α) :
    (text field.2).length ≤ (writeField ascii text field).length := by
  rw [writeField, List.length_append]
  exact Nat.le_add_left ..

/-- What comes after a field: a comma and the other fields, or the closing brace. -/
def afterField (depth : Nat) (fields : List (Text × Json)) (fuel : Nat) (rest : Text) :
    Except ReadError (Json × Text) :=
  match skipGap rest with
  | c :: rest =>
    if c = CodePoint.ofChar ',' then fieldsOnto depth fields fuel (skipGap rest)
    else if c = CodePoint.ofChar '\x7d' then .ok (.object fields, rest)
    else .error .malformed
  | [] => .error .malformed

/-- What one field takes: its key, its colon and its value, whatever was read before it. -/
theorem fieldsOnto_writeField {ascii : Bool} {key : Text} {a : α} {acc : List (Text × Json)}
    (apart : ascii = true → Unpaired key) (reads : Reads depth (text a) (value a))
    (stops : Stops rest) (enough : (text a).length ≤ fuel) :
    fieldsOnto depth acc (fuel + 1) (writeField ascii text (key, a) ++ rest) =
      afterField depth (Table.put key (value a) acc) fuel rest := by
  have parts : writeField ascii text (key, a) ++ rest =
      CodePoint.ofChar '"' :: (key.flatMap (escape ascii) ++ CodePoint.ofChar '"' ::
        CodePoint.ofChar ':' :: CodePoint.ofChar ' ' :: (text a ++ rest)) := by
    rw [writeField, writeString, List.append_assoc, List.append_assoc, List.append_assoc,
      List.append_assoc]
    rfl
  have blank : ∀ c ∈ [CodePoint.ofChar ' '], isGap c = true :=
    List.forall_mem_singleton.2 (by decide)
  have space : skipGap (CodePoint.ofChar ' ' :: (text a ++ rest)) = text a ++ rest :=
    (skipGap_append blank _).trans (reads.begins.skipGap rest)
  rw [parts, fieldsOnto, if_pos rfl, readString_escapes apart]
  dsimp only
  rw [skipGap_cons (by decide)]
  dsimp only
  rw [if_pos rfl, space, reads.read fuel rest enough stops]
  rfl

/-- The fields of an object are read one after another, up to its closing brace. -/
theorem fieldsOnto_joined {ascii : Bool} {field : Text × α} {fields : List (Text × α)}
    {acc : List (Text × Json)}
    (apart : ∀ f ∈ field :: fields, ascii = true → Unpaired f.1)
    (each : ∀ f ∈ field :: fields, Reads depth (text f.2) (value f.2))
    (distinct : (acc.map Prod.fst ++ (field :: fields).map Prod.fst).Nodup)
    (blankSpace : ∀ c ∈ space, isGap c = true) (blankGap : ∀ c ∈ gap, isGap c = true)
    (enough : (Text.joined (CodePoint.ofChar ',' :: space)
      ((field :: fields).map (writeField ascii text))).length < fuel) :
    fieldsOnto depth acc fuel (Text.joined (CodePoint.ofChar ',' :: space)
        ((field :: fields).map (writeField ascii text)) ++
          (gap ++ CodePoint.ofChar '\x7d' :: rest)) =
      .ok (.object (acc ++ (field :: fields).map fun f => (f.1, value f.2)), rest) := by
  induction fields generalizing field acc fuel with
  | nil =>
    obtain ⟨key, a⟩ := field
    obtain ⟨fuel, rfl⟩ : ∃ less, fuel = less + 1 := ⟨fuel - 1, by omega⟩
    have shorter : (text a).length ≤ fuel :=
      (length_text_le ascii (key, a)).trans (Nat.le_of_lt_succ enough)
    have fresh : key ∉ acc.map Prod.fst := fun member =>
      (List.nodup_append.1 distinct).2.2 key member key (List.mem_cons_self ..) rfl
    simp only [List.map_cons, List.map_nil, Text.joined]
    rw [fieldsOnto_writeField (apart _ (List.mem_cons_self ..)) (each _ (List.mem_cons_self ..))
      (.of_gap blankGap (.inr (.inr rfl)) rest) shorter, afterField, skipGap_append blankGap,
      skipGap_cons (by decide)]
    dsimp only
    rw [if_neg (by decide), if_pos rfl, Table.put_of_not_mem fresh]
  | cons next fields ih =>
    obtain ⟨key, a⟩ := field
    obtain ⟨fuel, rfl⟩ : ∃ less, fuel = less + 1 := ⟨fuel - 1, by omega⟩
    obtain ⟨apartHere, apartOthers⟩ := List.forall_mem_cons.1 apart
    obtain ⟨here, others⟩ := List.forall_mem_cons.1 each
    rw [joined_map_cons, List.length_append, List.length_append, List.length_cons] at enough
    have shorter : (text a).length ≤ fuel := (length_text_le ascii (key, a)).trans (by omega)
    have fresh : key ∉ acc.map Prod.fst := fun member =>
      (List.nodup_append.1 distinct).2.2 key member key (List.mem_cons_self ..) rfl
    have distinct' : ((acc ++ [(key, value a)]).map Prod.fst ++
        (next :: fields).map Prod.fst).Nodup := by
      simpa using distinct
    have later : Begins (Text.joined (CodePoint.ofChar ',' :: space)
        ((next :: fields).map (writeField ascii text))) :=
      begins_joined fun f _ => begins_writeField f
    rw [joined_map_cons, List.append_assoc, List.append_assoc, List.cons_append,
      fieldsOnto_writeField apartHere here (stops_comma _) shorter, afterField,
      skipGap_cons (by decide)]
    dsimp only
    rw [if_pos rfl, skipGap_append blankSpace, later.skipGap, Table.put_of_not_mem fresh,
      ih apartOthers others distinct' (by omega), List.append_assoc]
    rfl

end Rows

section Brackets

variable {style : Style} {level : Nat} {opening closing : CodePoint} {texts : List Text}
  {fuel : Nat}

theorem bracket_eq_cons (style : Style) (level : Nat) (opening closing : CodePoint)
    (texts : List Text) : ∃ t, style.bracket level [opening] [closing] texts = opening :: t := by
  unfold Style.bracket
  split <;> exact ⟨_, rfl⟩

/-- What stands between brackets, and what stands behind them. -/
theorem bracket_append (some : texts ≠ []) (rest : Text) :
    style.bracket level [opening] [closing] texts ++ rest =
      opening :: (style.newline (level + 1) ++ (Text.joined (style.separator (level + 1)) texts ++
        (style.newline level ++ closing :: rest))) := by
  rw [Style.bracket, if_neg (by simpa using some)]
  simp

theorem length_joined_lt (some : texts ≠ [])
    (enough : (style.bracket level [opening] [closing] texts).length ≤ fuel + 1) :
    (Text.joined (style.separator (level + 1)) texts).length < fuel := by
  rw [← List.append_nil (style.bracket ..), bracket_append some, List.length_cons,
    List.length_append, List.length_append, List.length_append, List.length_cons] at enough
  omega

end Brackets

namespace Reads

variable {α : Type} {style : Style} {depth level : Nat} {text : α → Text} {value : α → Json}

/-- A text in brackets is read if it is read wherever there is fuel for its own length. -/
theorem of_bracket {opening closing : CodePoint} {texts : List Text} {whole : Json}
    (open_ : isGap opening = false ∧ opening ≠ CodePoint.ofChar ']' ∧
      opening ≠ CodePoint.ofChar '\x7d')
    (read : ∀ fuel rest, (style.bracket level [opening] [closing] texts).length ≤ fuel + 1 →
      readValue depth (fuel + 1) (style.bracket level [opening] [closing] texts ++ rest) =
        .ok (whole, rest)) :
    Reads depth (style.bracket level [opening] [closing] texts) whole := by
  obtain ⟨t, parts⟩ := bracket_eq_cons style level opening closing texts
  refine ⟨⟨opening, t, parts, open_⟩, ?_⟩
  rintro (_ | fuel) rest enough stops
  · rw [parts] at enough
    cases enough
  · exact read fuel rest enough

/-- A row of items between brackets is read if each of its items is. -/
theorem array {items : List α} (each : ∀ item ∈ items, Reads depth (text item) (value item)) :
    Reads (depth + 1)
      (style.bracket level [CodePoint.ofChar '['] [CodePoint.ofChar ']'] (items.map text))
      (.array (items.map value)) := by
  refine of_bracket (by decide) fun fuel rest enough => ?_
  cases items with
  | nil => rfl
  | cons a items =>
    have some : (a :: items).map text ≠ [] := by simp
    obtain ⟨space, comma, blankSpace⟩ := separator_eq style (level + 1)
    have begins : Begins (Text.joined (style.separator (level + 1)) ((a :: items).map text)) :=
      begins_joined fun item member => (each item member).begins
    have shorter := length_joined_lt some enough
    rw [bracket_append some, readValue, if_neg (by decide), if_pos rfl,
      skipGap_append fun c => isGap_of_mem_newline, begins.skipGap]
    rw [comma] at begins shorter ⊢
    dsimp only
    rw [if_neg (by omega), if_neg (begins.head?_ne _).1, Nat.add_sub_cancel,
      itemsOnto_joined each blankSpace (fun c => isGap_of_mem_newline) shorter]
    rfl

/-- A row of fields between braces is read if each of its keys and values is. -/
theorem object {fields : List (Text × α)} (apart : ∀ f ∈ fields, style.ascii = true → Unpaired f.1)
    (each : ∀ f ∈ fields, Reads depth (text f.2) (value f.2))
    (distinct : (fields.map Prod.fst).Nodup) :
    Reads (depth + 1)
      (style.bracket level [CodePoint.ofChar '\x7b'] [CodePoint.ofChar '\x7d']
        (fields.map (writeField style.ascii text)))
      (.object (fields.map fun f => (f.1, value f.2))) := by
  refine of_bracket (by decide) fun fuel rest enough => ?_
  cases fields with
  | nil => rfl
  | cons field fields =>
    have fresh : (([] : List (Text × Json)).map Prod.fst ++
        (field :: fields).map Prod.fst).Nodup := distinct
    have some : (field :: fields).map (writeField style.ascii text) ≠ [] := by simp
    obtain ⟨space, comma, blankSpace⟩ := separator_eq style (level + 1)
    have begins : Begins (Text.joined (style.separator (level + 1))
        ((field :: fields).map (writeField style.ascii text))) :=
      begins_joined fun f _ => begins_writeField f
    have shorter := length_joined_lt some enough
    rw [bracket_append some, readValue, if_neg (by decide), if_neg (by decide),
      if_pos rfl, skipGap_append fun c => isGap_of_mem_newline, begins.skipGap]
    rw [comma] at begins shorter ⊢
    dsimp only
    rw [if_neg (by omega), if_neg (begins.head?_ne _).2, Nat.add_sub_cancel,
      fieldsOnto_joined apart each fresh blankSpace (fun c => isGap_of_mem_newline) shorter]
    rfl

end Reads

/-! ## Values -/

mutual

/-- The value with the fields of its objects in the order in which a style writes them. -/
def arranged (style : Style) : Json → Json
  | .array items => .array (arrangedItems style items)
  | .object fields => .object (style.arrange (arrangedFields style fields))
  | j => j

/-- The items of an array, each with its fields in order. -/
def arrangedItems (style : Style) : List Json → List Json
  | [] => []
  | item :: items => arranged style item :: arrangedItems style items

/-- The fields of an object in their own order, each with its own fields in order. -/
def arrangedFields (style : Style) : List (Text × Json) → List (Text × Json)
  | [] => []
  | (key, value) :: fields => (key, arranged style value) :: arrangedFields style fields

end

theorem arrangedItems_eq_map (style : Style) (items : List Json) :
    arrangedItems style items = items.map (arranged style) := by
  induction items with
  | nil => rfl
  | cons item items ih => rw [arrangedItems, ih, List.map_cons]

theorem arrangedFields_eq_map (style : Style) (fields : List (Text × Json)) :
    arrangedFields style fields = fields.map fun field => (field.1, arranged style field.2) := by
  induction fields with
  | nil => rfl
  | cons field fields ih => rw [arrangedFields, ih, List.map_cons]

theorem writeItems_eq_map (style : Style) (level : Nat) (items : List Json) :
    writeItems style level items = items.map (write style level) := by
  induction items with
  | nil => rfl
  | cons item items ih => rw [writeItems, ih, List.map_cons]

theorem writeFields_eq_map (style : Style) (level : Nat) (fields : List (Text × Json)) :
    writeFields style level fields = fields.map fun field => (field.1, write style level field.2) := by
  induction fields with
  | nil => rfl
  | cons field fields ih => rw [writeFields, ih, List.map_cons]

theorem Style.arrange_perm {α : Type} (style : Style) (fields : List (Text × α)) :
    (style.arrange fields).Perm fields := by
  unfold arrange
  split
  · exact List.mergeSort_perm ..
  · exact .refl _

/-- Only keys count for the order of fields. -/
theorem Style.arrange_map {α β : Type} (style : Style) (f : α → β) (fields : List (Text × α)) :
    style.arrange (fields.map fun field => (field.1, f field.2)) =
      (style.arrange fields).map fun field => (field.1, f field.2) := by
  unfold arrange
  split
  · exact (List.map_mergeSort (f := fun field : Text × α => (field.1, f field.2)) fun _ _ _ _ => rfl).symm
  · rfl

theorem arranged_object (style : Style) (fields : List (Text × Json)) :
    (Json.object fields).arranged style =
      .object ((style.arrange fields).map fun field => (field.1, field.2.arranged style)) := by
  rw [arranged, arrangedFields_eq_map, style.arrange_map]

/-- What a field holds does not depend on where it stands. -/
theorem field?_arranged (style : Style) {fields : List (Text × Json)}
    (distinct : (fields.map Prod.fst).Nodup) (key : Text) :
    ((Json.object fields).arranged style).field? key =
      ((Json.object fields).field? key).map (arranged style) := by
  rw [arranged_object, field?, Table.find?_map,
    Table.find?_of_perm (style.arrange_perm fields) distinct]
  rfl

/-- Values that lie no deeper than `depth` one inside another, with texts that are accepted,
integers short enough to be read, no number that has a fraction, and no key twice in an object. -/
inductive Built (accepts : Text → Prop) : Nat → Json → Prop where
  | null {depth : Nat} : Built accepts depth .null
  | bool {depth : Nat} (b : Bool) : Built accepts depth (.bool b)
  | int {depth : Nat} {n : Int} (few : (Decimal.ofNat n.natAbs).length ≤ digitLimit) :
    Built accepts depth (.int n)
  | string {depth : Nat} {t : Text} (accepted : accepts t) : Built accepts depth (.string t)
  | array {depth : Nat} {items : List Json} (each : ∀ item ∈ items, Built accepts depth item) :
    Built accepts (depth + 1) (.array items)
  | object {depth : Nat} {fields : List (Text × Json)} (keys : ∀ f ∈ fields, accepts f.1)
    (each : ∀ f ∈ fields, Built accepts depth f.2) (distinct : (fields.map Prod.fst).Nodup) :
    Built accepts (depth + 1) (.object fields)

namespace Built

variable {accepts : Text → Prop} {style : Style} {depth : Nat} {j : Json}

/-- Built values are read as they were written, wherever they stand. -/
theorem reads (built : Built accepts depth j)
    (apart : ∀ t, accepts t → style.ascii = true → Unpaired t) (level : Nat) :
    Reads depth (j.write style level) (j.arranged style) := by
  induction built generalizing level with
  | null => exact .null
  | bool b => exact .bool style level b
  | int few => exact .int few
  | string accepted => exact .string (apart _ accepted)
  | array each ih =>
    rw [write, writeItems_eq_map, arranged, arrangedItems_eq_map]
    exact .array fun item member => ih item member (level + 1)
  | @object depth fields keys each distinct ih =>
    have perm := style.arrange_perm fields
    rw [write, writeFields_eq_map, style.arrange_map, List.map_map, arranged_object]
    exact .object (fun f member => apart _ (keys f (perm.mem_iff.1 member)))
      (fun f member => ih f (perm.mem_iff.1 member) (level + 1))
      ((perm.map Prod.fst).nodup_iff.2 distinct)

/-- What is written is a document that holds the value. -/
theorem read_write (built : Built accepts depthLimit j)
    (apart : ∀ t, accepts t → style.ascii = true → Unpaired t) :
    Json.read (j.write style 0) = .ok (j.arranged style) := by
  have reads := built.reads apart 0
  have whole := reads.read ((j.write style 0).length + 1) [] (Nat.le_succ _) stops_nil
  have start := reads.begins.skipGap []
  rw [List.append_nil] at whole start
  rw [Json.read, start, whole]
  rfl

/-- A style that orders no fields changes nothing. -/
theorem arranged_eq (built : Built accepts depth j) (unsorted : style.sorted = false) :
    j.arranged style = j := by
  induction built with
  | null => rfl
  | bool b => rfl
  | int few => rfl
  | string accepted => rfl
  | array each ih =>
    rw [arranged, arrangedItems_eq_map, List.map_congr_left ih, List.map_id']
  | object keys each distinct ih =>
    rename_i fields
    have same : (fields.map fun f => (f.1, f.2.arranged style)) = fields.map id :=
      List.map_congr_left fun f member => Prod.ext rfl (ih f member)
    rw [arranged, arrangedFields_eq_map, Style.arrange, if_neg (by simp [unsorted]), same,
      List.map_id]

end Built

end StepReplay.Json
