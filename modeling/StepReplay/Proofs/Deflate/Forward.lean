import StepReplay.Proofs.Zlib

set_option autoImplicit false

/-! # Readers go forward

A reader takes bytes off the front of a stream and looks at no others. So when it gives a value, it
gives the same whatever stands behind those bytes, and it runs out of input when one of them is
missing, wherever the stream is cut off (`Uses`). Two readers in a row inherit that from each other,
and the loops over symbols and blocks from their steps (`Forward`).

The number of turns that the loops may take does not count either: each turn takes a bit at least,
so the bits of the input are turns enough (`readSymbols_steady`, `readBlocks_steady`). -/

namespace StepReplay.Deflate

/-- How many bits are left of a stream. -/
def Bits.length (s : Bits) : Nat :=
  s.buffered.length + 8 * s.rest.length

section Uses

variable {α β : Type}

/-- Behind the bits `before` of a byte that has been begun a reader takes the bytes `used`, gives a
value and leaves the bits `after` of the last one. If any of the bytes is missing, it runs out of
input. -/
structure Uses (reader : Reader α) (before : List Bool) (used : Bytes) (a : α)
    (after : List Bool) : Prop where
  takes : ∀ more, Takes reader ⟨before, used ++ more⟩ a ⟨after, more⟩
  truncated : ∀ k < used.length, reader.run ⟨before, used.take k⟩ = .error .truncated

theorem Takes.bind_inv {reader : Reader α} {next : α → Reader β} {s u : Bits} {b : β}
    (h : Takes (reader >>= next) s b u) :
    ∃ a t, Takes reader s a t ∧ Takes (next a) t b u := by
  unfold Takes at h ⊢
  rw [StateT.run_bind] at h
  cases first : reader.run s with
  | error fault =>
    rw [first] at h
    cases h
  | ok taken =>
    rw [first] at h
    exact ⟨taken.1, taken.2, rfl, h⟩

theorem run_bind_of_error {reader : Reader α} {next : α → Reader β} {s : Bits} {fault : Fault}
    (h : reader.run s = .error fault) : (reader >>= next).run s = .error fault := by
  rw [StateT.run_bind, h]
  rfl

theorem Takes.run_bind {reader : Reader α} {next : α → Reader β} {s t : Bits} {a : α}
    (h : Takes reader s a t) : (reader >>= next).run s = (next a).run t := by
  unfold Takes at h
  rw [StateT.run_bind, h]
  rfl

theorem Uses.bind {reader : Reader α} {next : α → Reader β} {before between after : List Bool}
    {used used' : Bytes} {a : α} {b : β} (first : Uses reader before used a between)
    (second : Uses (next a) between used' b after) :
    Uses (reader >>= next) before (used ++ used') b after := by
  refine ⟨fun more => ?_, fun k short => ?_⟩
  · rw [List.append_assoc]
    exact (first.takes _).bind (second.takes more)
  · by_cases inside : k < used.length
    · rw [List.take_append_of_le_length (by omega)]
      exact run_bind_of_error (first.truncated k inside)
    · -- the first reader has all its bytes, and the second one misses some
      obtain ⟨m, rfl⟩ := Nat.exists_eq_add_of_le (Nat.le_of_not_lt inside)
      rw [List.length_append] at short
      rw [List.take_length_add_append, (first.takes _).run_bind]
      exact second.truncated m (by omega)

/-- A reader that looks at the bytes it takes and at no others, and takes so many bits at least. -/
def Forward (least : Nat) (reader : Reader α) : Prop :=
  ∀ s a t, Takes reader s a t → t.length + least ≤ s.length ∧
    ∃ used, s.rest = used ++ t.rest ∧ Uses reader s.buffered used a t.buffered

namespace Forward

variable {reader : Reader α} {next : α → Reader β} {least : Nat}

theorem mono (h : Forward least reader) : Forward 0 reader := by
  intro s a t takes
  obtain ⟨spent, stretch⟩ := h s a t takes
  exact ⟨by omega, stretch⟩

theorem pure (a : α) : Forward 0 (Pure.pure a) := by
  rintro s _ _ ⟨⟩
  refine ⟨by omega, [], rfl, fun more => .pure a, fun k short => ?_⟩
  exact absurd short (Nat.not_lt_zero k)

theorem throw (fault : Fault) : Forward least (MonadExcept.throw fault : Reader α) := by
  rintro s a t ⟨⟩

theorem bind (first : Forward least reader) (others : ∀ a, Forward 0 (next a)) :
    Forward least (reader >>= next) := by
  intro s b u takes
  obtain ⟨a, t, here, there⟩ := takes.bind_inv
  obtain ⟨spent, used, whole, uses⟩ := first s a t here
  obtain ⟨spent', used', whole', uses'⟩ := others a t b u there
  refine ⟨by omega, used ++ used', ?_, uses.bind uses'⟩
  rw [whole, whole', List.append_assoc]

/-- What follows a fault is never read. -/
theorem throw_bind (fault : Fault) (next : α → Reader β) :
    Forward least (MonadExcept.throw fault >>= next) := by
  rintro s b u ⟨⟩

theorem ite {condition : Prop} [Decidable condition] {one other : Reader α}
    (yes : Forward least one) (no : Forward least other) :
    Forward least (if condition then one else other) := by
  split
  · exact yes
  · exact no

end Forward

end Uses

/-! ## Bits, numbers and bytes -/

theorem forward_bit : Forward 1 Reader.bit := by
  rintro ⟨buffered, rest⟩ b t takes
  cases buffered with
  | cons c buffered =>
    cases takes
    refine ⟨by simp only [Bits.length, List.length_cons]; omega, [], rfl, fun more => rfl, ?_⟩
    exact fun k short => absurd short (Nat.not_lt_zero k)
  | nil =>
    cases rest with
    | nil => cases takes
    | cons x rest =>
      cases takes
      refine ⟨by simp only [Bits.length, List.length_cons]; simp; omega, [x], rfl, fun more => rfl, ?_⟩
      intro k short
      obtain rfl : k = 0 := by simpa using short
      rfl

theorem forward_number (count : Nat) : Forward 0 (Reader.number count) := by
  induction count with
  | zero => exact .pure 0
  | succ count ih => exact forward_bit.mono.bind fun _ => ih.bind fun _ => .pure _

/-- A number of some bits takes a bit. -/
theorem forward_number_succ (count : Nat) : Forward 1 (Reader.number (count + 1)) :=
  forward_bit.bind fun _ => (forward_number count).bind fun _ => .pure _

theorem forward_align : Forward 0 Reader.align := by
  rintro ⟨buffered, rest⟩ _ _ ⟨⟩
  refine ⟨by simp [Bits.length], [], rfl, fun more => rfl, ?_⟩
  exact fun k short => absurd short (Nat.not_lt_zero k)

/-- So many bytes are there or the input has ended. -/
theorem run_bytes (count : Nat) (buffered : List Bool) (rest : Bytes) :
    (Reader.bytes count).run ⟨buffered, rest⟩ =
      if rest.length < count then .error .truncated
      else .ok (rest.take count, ⟨buffered, rest.drop count⟩) := by
  have missing : min count rest.length < count ↔ rest.length < count := by omega
  show Reader.bytes count ⟨buffered, rest⟩ = _
  unfold Reader.bytes
  simp only [List.length_take, missing]

theorem forward_bytes (count : Nat) : Forward 0 (Reader.bytes count) := by
  rintro ⟨buffered, rest⟩ b t takes
  unfold Takes at takes
  rw [run_bytes] at takes
  split at takes
  case isTrue => cases takes
  case isFalse enough =>
    cases takes
    have size : (rest.take count).length = count := by
      rw [List.length_take]
      omega
    refine ⟨?_, rest.take count, (List.take_append_drop count rest).symm, fun more => ?_,
      fun k short => ?_⟩
    · simp only [Bits.length, List.length_drop]
      omega
    · unfold Takes
      rw [run_bytes, List.take_left' size, List.drop_left' size, if_neg]
      rw [List.length_append]
      omega
    · rw [run_bytes, if_pos]
      rw [List.length_take]
      omega

/-! ## Codes -/

theorem Code.forward_read (fault : Fault) (code : Code) : Forward 0 (code.read fault) := by
  induction code with
  | unused => exact .throw fault
  | leaf symbol => exact .pure symbol
  | node zero one forwardZero forwardOne =>
    refine forward_bit.mono.bind fun b => ?_
    exact .ite forwardOne forwardZero

/-- A code whose words have a bit at least. -/
def Code.Branches (code : Code) : Prop :=
  ∃ zero one, code = .node zero one

theorem Code.Branches.forward_read {code : Code} (branches : code.Branches) (fault : Fault) :
    Forward 1 (code.read fault) := by
  obtain ⟨zero, one, rfl⟩ := branches
  refine forward_bit.bind fun b => ?_
  exact .ite (one.forward_read fault) (zero.forward_read fault)

theorem Code.branches_tree (lengths : List Nat) : (Code.tree lengths).Branches := by
  rw [Code.tree]
  match Code.firstLevel lengths with
  | [] => exact ⟨_, _, rfl⟩
  | [c] => exact ⟨_, _, rfl⟩
  | c :: d :: rest => exact ⟨_, _, rfl⟩

theorem Code.branches_of_ofLengths? {lengths : List Nat} {code : Code}
    (h : Code.ofLengths? lengths = some code) : code.Branches := by
  simp only [Code.ofLengths?] at h
  split at h
  · obtain rfl := Option.some.inj h
    exact Code.branches_tree lengths
  · cases h

/-! ## Blocks -/

theorem forward_readRow (row : Option (Nat × Nat)) (fault : Fault) :
    Forward 0 (readRow row fault) := by
  cases row with
  | none => exact .throw fault
  | some entry => exact (forward_number _).bind fun more => .pure _

theorem forward_readSymbols (literals distances : Code) (fuel : Nat) (out : Array UInt8) :
    Forward 0 (readSymbols literals distances fuel out) := by
  induction fuel generalizing out with
  | zero => exact .throw .truncated
  | succ fuel ih =>
    rw [readSymbols]
    refine (literals.forward_read _).bind fun symbol => ?_
    refine .ite (ih _) (.ite (.pure _) ?_)
    refine (forward_readRow _ _).bind fun length => ?_
    refine (distances.forward_read _).bind fun symbol => ?_
    refine (forward_readRow _ _).bind fun distance => ?_
    exact .ite (.throw_bind _ _) (ih _)

theorem forward_readLengthLengths (count : Nat) : Forward 0 (readLengthLengths count) := by
  induction count with
  | zero => exact .pure []
  | succ count ih => exact (forward_number 3).bind fun length => ih.bind fun rest => .pure _

theorem forward_readLengths (code : Code) (total fuel : Nat) (acc : List Nat) :
    Forward 0 (readLengths code total fuel acc) := by
  induction fuel generalizing acc with
  | zero => exact .pure _
  | succ fuel ih =>
    rw [readLengths]
    refine .ite (.pure _) ?_
    refine (code.forward_read _).bind fun symbol => .ite (ih _) ?_
    refine (forward_number _).bind fun more => ?_
    dsimp only
    split
    · exact .throw _
    · exact .ite (.throw_bind _ _) (ih _)

theorem forward_readCodes : Forward 0 readCodes := by
  unfold readCodes
  refine (forward_number 5).bind fun literals => (forward_number 5).bind fun distances =>
    (forward_number 4).bind fun lengths => .ite (.throw_bind _ _) ?_
  refine (forward_readLengthLengths _).bind fun stored => ?_
  split
  · refine (forward_readLengths _ _ _ _).bind fun lengths => .ite (.throw_bind _ _) ?_
    split
    · split
      · exact .pure _
      · exact .throw _
    · exact .throw _
  · exact .throw _

/-- The words of a literal code that a block brings have a bit at least. -/
theorem branches_of_readCodes {codes : Code × Code} {s t : Bits} (h : Takes readCodes s codes t) :
    codes.1.Branches := by
  unfold readCodes at h
  obtain ⟨_, _, -, h⟩ := h.bind_inv
  obtain ⟨_, _, -, h⟩ := h.bind_inv
  obtain ⟨_, _, -, h⟩ := h.bind_inv
  split at h
  · cases h
  · obtain ⟨_, _, -, h⟩ := h.bind_inv
    split at h
    · obtain ⟨_, _, -, h⟩ := h.bind_inv
      dsimp only at h
      split at h
      · cases h
      · split at h
        next literals given =>
          split at h
          · cases h
            exact Code.branches_of_ofLengths? given
          · cases h
        · cases h
    · cases h

theorem forward_readStored (out : Array UInt8) : Forward 0 (readStored out) := by
  unfold readStored
  refine forward_align.bind fun _ => (forward_number 16).bind fun length =>
    (forward_number 16).bind fun complement => .ite (.throw_bind _ _) ?_
  exact (forward_bytes length).bind fun stored => .pure _

theorem forward_readBlocks (fuel blocks : Nat) (out : Array UInt8) :
    Forward 0 (readBlocks fuel blocks out) := by
  induction blocks generalizing out with
  | zero => exact .throw .truncated
  | succ blocks ih =>
    have others (last : Nat) (out : Array UInt8) :
        Forward 0 (if last = 1 then pure out else readBlocks fuel blocks out) :=
      .ite (.pure out) (ih out)
    rw [readBlocks]
    refine (forward_number 1).bind fun last => (forward_number 2).bind fun kind => ?_
    dsimp only
    split
    · exact (forward_readStored out).bind (others last)
    · exact (forward_readSymbols _ _ _ _).bind (others last)
    · exact forward_readCodes.bind fun codes =>
        (forward_readSymbols _ _ _ _).bind (others last)
    · exact .throw_bind _ _

/-! ## Turns -/

theorem run_bind_congr {α β : Type} {reader reader' : Reader α} {next next' : α → Reader β}
    {s : Bits} (first : reader.run s = reader'.run s)
    (others : ∀ a t, Takes reader s a t → (next a).run t = (next' a).run t) :
    (reader >>= next).run s = (reader' >>= next').run s := by
  rw [StateT.run_bind, StateT.run_bind, ← first]
  cases here : reader.run s with
  | error fault => rfl
  | ok taken => exact others taken.1 taken.2 here

/-- As many turns as there are bits are enough for the symbols of a block. -/
theorem readSymbols_steady {literals : Code} (branches : literals.Branches) (distances : Code)
    {fuel fuel' : Nat} {s : Bits} (enough : s.length < fuel) (enough' : s.length < fuel')
    (out : Array UInt8) :
    (readSymbols literals distances fuel out).run s =
      (readSymbols literals distances fuel' out).run s := by
  induction fuel generalizing fuel' s out with
  | zero => exact absurd enough (Nat.not_lt_zero _)
  | succ fuel ih =>
    obtain ⟨fuel', rfl⟩ : ∃ n, fuel' = n + 1 := ⟨fuel' - 1, by omega⟩
    rw [readSymbols, readSymbols]
    refine run_bind_congr rfl fun symbol t takes => ?_
    have spent := (branches.forward_read _ _ _ _ takes).1
    have again (out : Array UInt8) {u : Bits} (left : u.length ≤ t.length) :
        (readSymbols literals distances fuel out).run u =
          (readSymbols literals distances fuel' out).run u :=
      ih (by omega) (by omega) out
    by_cases literal : symbol < 256
    · rw [if_pos literal, if_pos literal]
      exact again _ (Nat.le_refl _)
    · rw [if_neg literal, if_neg literal]
      split
      · rfl
      · refine run_bind_congr rfl fun length u takes => ?_
        have left := (forward_readRow _ _ _ _ _ takes).1
        refine run_bind_congr rfl fun distanceSymbol v takes => ?_
        have left' := (distances.forward_read _ _ _ _ takes).1
        refine run_bind_congr rfl fun distance w takes => ?_
        have left'' := (forward_readRow _ _ _ _ _ takes).1
        dsimp only
        split
        · rfl
        · exact again _ (by omega)

/-- As many turns as there are bits are enough for the blocks of a stream. -/
theorem readBlocks_steady {fuel fuel' blocks blocks' : Nat} {s : Bits} (enough : s.length < fuel)
    (enough' : s.length < fuel') (turns : s.length < blocks) (turns' : s.length < blocks')
    (out : Array UInt8) :
    (readBlocks fuel blocks out).run s = (readBlocks fuel' blocks' out).run s := by
  induction blocks generalizing blocks' s out with
  | zero => exact absurd turns (Nat.not_lt_zero _)
  | succ blocks ih =>
    obtain ⟨blocks', rfl⟩ : ∃ n, blocks' = n + 1 := ⟨blocks' - 1, by omega⟩
    rw [readBlocks, readBlocks]
    refine run_bind_congr rfl fun last t takes => ?_
    have spent := (forward_number_succ 0 _ _ _ takes).1
    refine run_bind_congr rfl fun kind u takes => ?_
    have left := (forward_number 2 _ _ _ takes).1
    have others (out : Array UInt8) {v : Bits} (left : v.length ≤ u.length) :
        (if last = 1 then pure out else readBlocks fuel blocks out : Reader (Array UInt8)).run v =
          (if last = 1 then pure out else readBlocks fuel' blocks' out : Reader _).run v := by
      split
      · rfl
      · exact ih (by omega) (by omega) (by omega) (by omega) out
    have symbols {literals : Code} (branches : literals.Branches) (distances : Code) {v : Bits}
        (left : v.length ≤ u.length) : (readSymbols literals distances fuel out).run v =
          (readSymbols literals distances fuel' out).run v :=
      readSymbols_steady branches distances (by omega) (by omega) out
    dsimp only
    split
    · refine run_bind_congr rfl fun out v takes => others out ?_
      have := (forward_readStored _ _ _ _ takes).1
      omega
    · refine run_bind_congr (symbols (Code.branches_tree _) _ (Nat.le_refl _))
        fun out v takes => others out ?_
      have := (forward_readSymbols _ _ _ _ _ _ _ takes).1
      omega
    · refine run_bind_congr rfl fun codes v takes => ?_
      have left' := (forward_readCodes _ _ _ takes).1
      refine run_bind_congr (symbols (branches_of_readCodes takes) _ (by omega))
        fun out w takes => others out ?_
      have := (forward_readSymbols _ _ _ _ _ _ _ takes).1
      omega
    · rfl

end StepReplay.Deflate
