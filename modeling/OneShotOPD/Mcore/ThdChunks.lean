import OneShotOPD.Mcore.ThdLengths

/-!
# The chunks of one sequence

A rank copies its two chunks from the sequence as far as that reaches.  When
the padded length is two chunks a rank and the chunks from the front stay within
the tokens, the ranks hold the chunks of one extension of the sequence to its
padded length.  The same is true when the last rank finds one token for its
chunk from the front, which is then repeated.
-/

namespace OneShotOPD.Mcore

open Segments SliceAssign Zigzag Checks

variable {α : Type}

/-- A sequence of which the ranks hold the chunks. -/
def extendChunks (half cpSize : ℕ) (zero : α) (d : List α) : List α :=
  if cpSize * half ≤ d.length then
    d ++ List.replicate (2 * (cpSize * half) - d.length) zero
  else
    d ++ (List.replicate (half - 1) (d.getLastD zero) ++ List.replicate (cpSize * half) zero)

/-- The chunks of a padded length stay within the available tokens. -/
def ChunksFit (cpSize available seqlenPadded : ℕ) : Prop :=
  2 * cpSize ∣ seqlenPadded ∧
    (seqlenPadded / 2 ≤ available ∨
      available = (cpSize - 1) * (seqlenPadded / (2 * cpSize)) + 1)

instance (cpSize available seqlenPadded : ℕ) :
    Decidable (ChunksFit cpSize available seqlenPadded) :=
  inferInstanceAs (Decidable (_ ∧ _))

namespace ChunksFit

variable {cpSize available seqlenPadded : ℕ}

theorem div_cpSize (hfit : ChunksFit cpSize available seqlenPadded) (hcp : 0 < cpSize) :
    seqlenPadded / cpSize = 2 * (seqlenPadded / cpSize / 2) := by
  obtain ⟨⟨half, rfl⟩, -⟩ := hfit
  rw [Nat.mul_comm 2, Nat.mul_assoc, Nat.mul_div_cancel_left _ hcp,
    Nat.mul_div_cancel_left half (by decide)]

theorem eq_two_mul (hfit : ChunksFit cpSize available seqlenPadded) :
    seqlenPadded = 2 * (cpSize * (seqlenPadded / cpSize / 2)) := by
  rw [Nat.div_div_eq_div_mul, ← Nat.mul_assoc, Nat.mul_comm cpSize, Nat.mul_div_cancel' hfit.1]

theorem reach (hfit : ChunksFit cpSize available seqlenPadded) :
    cpSize * (seqlenPadded / cpSize / 2) ≤ available ∨
      available = (cpSize - 1) * (seqlenPadded / cpSize / 2) + 1 := by
  have htwo := hfit.eq_two_mul
  rcases hfit.2 with hinside | hone
  · left
    omega
  · right
    rwa [Nat.div_div_eq_div_mul, Nat.mul_comm cpSize]

end ChunksFit

theorem length_padToAlign (alignSize : ℕ) (zero : α) (tokens : List α) :
    (padToAlign alignSize zero tokens).length = max tokens.length alignSize := by
  rw [padToAlign]
  split
  next hlt =>
    rw [List.length_append, List.length_replicate]
    omega
  next hge => exact (max_eq_left (not_lt.mp hge)).symm

theorem padToAlign_eq (alignSize : ℕ) (zero : α) (tokens : List α) :
    padToAlign alignSize zero tokens =
      tokens ++ List.replicate (alignSize - tokens.length) zero := by
  rw [padToAlign]
  split
  next => rfl
  next hge => rw [Nat.sub_eq_zero_of_le (not_lt.mp hge), List.replicate_zero, List.append_nil]

section

variable {half cpSize : ℕ} {zero : α} {d : List α}

theorem length_extendChunks (hcp : 0 < cpSize) (hlength : d.length ≤ 2 * (cpSize * half))
    (hfit : cpSize * half ≤ d.length ∨ d.length = (cpSize - 1) * half + 1) :
    (extendChunks half cpSize zero d).length = 2 * (cpSize * half) := by
  have hmul : cpSize * half = (cpSize - 1) * half + half := by
    rw [← Nat.succ_mul, Nat.succ_eq_add_one, Nat.sub_add_cancel hcp]
  rw [extendChunks]
  split <;> simp only [List.length_append, List.length_replicate] <;> omega

/-- Every other element of an extension is zero, or a token of the same rank. -/
theorem getElem?_extendChunks (hcp : 0 < cpSize)
    (hlength : d.length ≤ 2 * (cpSize * half))
    (hfit : cpSize * half ≤ d.length ∨ d.length = (cpSize - 1) * half + 1)
    {index : ℕ} {item : α} (hitem : (extendChunks half cpSize zero d)[index]? = some item) :
    item = zero ∨ ∃ source, d[source]? = some item ∧
      rankOf half (2 * (cpSize * half)) source =
        rankOf half (2 * (cpSize * half)) index := by
  have hmul : cpSize * half = (cpSize - 1) * half + half := by
    rw [← Nat.succ_mul, Nat.succ_eq_add_one, Nat.sub_add_cancel hcp]
  rw [extendChunks] at hitem
  split at hitem
  next =>
    rw [List.getElem?_append] at hitem
    split at hitem
    next => exact .inr ⟨index, hitem, rfl⟩
    next =>
      rw [List.getElem?_replicate] at hitem
      split at hitem
      next => exact .inl (Option.some.inj hitem).symm
      next => cases hitem
  next hshort =>
    have hd : d.length = (cpSize - 1) * half + 1 := hfit.resolve_left hshort
    rw [List.getElem?_append] at hitem
    split at hitem
    next => exact .inr ⟨index, hitem, rfl⟩
    next hge =>
      rw [List.getElem?_append, List.length_replicate] at hitem
      split at hitem
      next hlt =>
        -- a copy of the last token, in the chunk of the token itself
        rw [List.getElem?_replicate, if_pos hlt] at hitem
        refine .inr ⟨d.length - 1, ?_, ?_⟩
        · rw [← hitem, List.getLastD_eq_getLast?, List.getLast?_eq_getElem?,
            List.getElem?_eq_getElem (by omega), Option.getD_some]
        · have hhalf : 0 < half := by omega
          have hsource : rankOf half (2 * (cpSize * half)) (d.length - 1) = cpSize - 1 := by
            rw [rankOf, Nat.div_eq_iff hhalf]
            omega
          have hindex : rankOf half (2 * (cpSize * half)) index = cpSize - 1 := by
            rw [rankOf, Nat.div_eq_iff hhalf]
            omega
          rw [hsource, hindex]
      next =>
        rw [List.getElem?_replicate] at hitem
        split at hitem
        next => exact .inl (Option.some.inj hitem).symm
        next => cases hitem

theorem take_extendChunks (count : ℕ) (hcount : count ≤ d.length) :
    (extendChunks half cpSize zero d).take count = d.take count := by
  rw [extendChunks]
  split <;> exact List.take_append_of_le_length hcount

theorem getElem?_extendChunks_of_lt {index : ℕ} (hindex : index < d.length) :
    (extendChunks half cpSize zero d)[index]? = d[index]? := by
  rw [extendChunks]
  split <;> exact List.getElem?_append_left hindex

/-- The chunk from the front is the one of the extension, or one token for all
of it. -/
theorem firstChunk_extendChunks (zero : α) {rank : ℕ} (hrank : rank < cpSize)
    (hfit : cpSize * half ≤ d.length ∨ d.length = (cpSize - 1) * half + 1) :
    (slice (half * rank) (half * (rank + 1)) d =
        firstChunk half rank (extendChunks half cpSize zero d) ∧
      (slice (half * rank) (half * (rank + 1)) d).length = half) ∨
    ∃ value, slice (half * rank) (half * (rank + 1)) d = [value] ∧
      firstChunk half rank (extendChunks half cpSize zero d) = List.replicate half value := by
  have hmul : cpSize * half = (cpSize - 1) * half + half := by
    rw [← Nat.succ_mul, Nat.succ_eq_add_one, Nat.sub_add_cancel (Nat.zero_lt_of_lt hrank)]
  have hstep : (rank + 1) * half = rank * half + half := Nat.succ_mul rank half
  have hinside : half * (rank + 1) ≤ d.length →
      slice (half * rank) (half * (rank + 1)) d =
          firstChunk half rank (extendChunks half cpSize zero d) ∧
        (slice (half * rank) (half * (rank + 1)) d).length = half := by
    intro hle
    constructor
    · rw [firstChunk, Nat.mul_comm rank, Nat.mul_comm (rank + 1), slice, slice,
        take_extendChunks _ hle]
    · rw [length_slice hle, Nat.mul_succ, Nat.add_sub_cancel_left]
  by_cases hlast : rank = cpSize - 1
  · rcases hfit with hfit | hfit
    · exact .inl (hinside (by rw [Nat.mul_comm, hstep, hlast]; omega))
    · by_cases hone : half ≤ 1
      · exact .inl (hinside (by rw [Nat.mul_comm, hstep, hlast]; omega))
      · -- the last token stands alone at the start of the last chunk
        have hne : d ≠ [] := List.ne_nil_of_length_pos (by omega)
        have hdrop : d.drop ((cpSize - 1) * half) = [d.getLastD zero] := by
          conv_lhs => rw [← List.dropLast_append_getLast hne]
          rw [List.drop_left' (by rw [List.length_dropLast]; omega),
            List.getLastD_eq_getLast?, List.getLast?_eq_some_getLast hne, Option.getD_some]
        refine .inr ⟨d.getLastD zero, ?_, ?_⟩
        · rw [slice, List.take_of_length_le (by rw [Nat.mul_comm, hstep, hlast]; omega),
            Nat.mul_comm, hlast, hdrop]
        · rw [firstChunk, extendChunks, if_neg (by omega), ← List.append_assoc, slice,
            List.take_left' (by
              simp only [List.length_append, List.length_replicate]
              rw [hstep, hlast]
              omega),
            hlast, List.drop_append_of_le_length (by omega), hdrop, List.singleton_append,
            ← List.replicate_succ, Nat.sub_add_cancel (by omega)]
  · have hreach : (rank + 1) * half ≤ (cpSize - 1) * half :=
      Nat.mul_le_mul_right half (by omega)
    exact .inl (hinside (by rw [Nat.mul_comm]; omega))

theorem secondChunk_extendChunks {rank : ℕ} (hrank : rank < cpSize)
    (hlength : d.length ≤ 2 * (cpSize * half))
    (hfit : cpSize * half ≤ d.length ∨ d.length = (cpSize - 1) * half + 1) :
    secondChunk half rank (extendChunks half cpSize zero d) =
      slice (2 * (cpSize * half) - (rank + 1) * half) (2 * (cpSize * half) - rank * half)
        (d ++ List.replicate (2 * (cpSize * half) - d.length) zero) := by
  have hreach : (rank + 1) * half ≤ cpSize * half := Nat.mul_le_mul_right half hrank
  have hstep : (rank + 1) * half = rank * half + half := Nat.succ_mul rank half
  have hmul : cpSize * half = (cpSize - 1) * half + half := by
    rw [← Nat.succ_mul, Nat.succ_eq_add_one, Nat.sub_add_cancel (Nat.zero_lt_of_lt hrank)]
  rw [secondChunk, length_extendChunks (Nat.zero_lt_of_lt hrank) hlength hfit, extendChunks]
  split
  next => rfl
  next hshort =>
    -- both sides lie behind the tokens and their copies
    have hd := hfit.resolve_left hshort
    have hrest : ∀ low high, d.length ≤ low → slice low high d = [] :=
      fun _ _ hlow => slice_of_length_le hlow
    rw [slice_append, slice_of_length_le (by omega), slice_append, slice_append,
      slice_of_length_le (by rw [List.length_replicate]; omega),
      hrest _ _ (by omega), List.length_replicate, slice_replicate, slice_replicate]
    simp only [List.nil_append]
    congr 1
    omega

end

/-- A rank writes its two chunks of the extension. -/
theorem writeChunks_eq {cpSize rank alignSize seqlenPadded seqStart : ℕ} {zero : α}
    {tokens front : List α} (back : List α) (hrank : rank < cpSize)
    (hfront : front.length = seqStart / cpSize)
    (hlength : max tokens.length alignSize ≤ seqlenPadded)
    (hfit : ChunksFit cpSize (max tokens.length alignSize) seqlenPadded) :
    writeChunks cpSize rank alignSize zero
        (front ++ (List.replicate (seqlenPadded / cpSize) zero ++ back)) tokens seqlenPadded
        seqStart =
      .ok (front ++ (
        (firstChunk (seqlenPadded / cpSize / 2) rank
            (extendChunks (seqlenPadded / cpSize / 2) cpSize zero
              (padToAlign alignSize zero tokens)) ++
          secondChunk (seqlenPadded / cpSize / 2) rank
            (extendChunks (seqlenPadded / cpSize / 2) cpSize zero
              (padToAlign alignSize zero tokens))) ++ back)) := by
  have hcp : 0 < cpSize := Nat.zero_lt_of_lt hrank
  have hseqlen := hfit.div_cpSize hcp
  have htwo := hfit.eq_two_mul
  have hreach := hfit.reach
  rw [← length_padToAlign alignSize zero tokens] at hlength hreach
  rw [writeChunks]
  generalize padToAlign alignSize zero tokens = d at hlength hreach ⊢
  generalize seqlenPadded / cpSize / 2 = half at hseqlen htwo hreach ⊢
  rw [hseqlen, htwo]
  rw [htwo] at hlength
  have hrankReach : (rank + 1) * half ≤ cpSize * half := Nat.mul_le_mul_right half hrank
  have hstep : (rank + 1) * half = rank * half + half := Nat.succ_mul rank half
  have hfirstLength :
      (firstChunk half rank (extendChunks half cpSize zero d)).length = half :=
    length_firstChunk hrank (length_extendChunks hcp hlength hreach)
  have hfirst : assignSlice (front ++ (List.replicate (2 * half) zero ++ back))
      (seqStart / cpSize) (seqStart / cpSize + half)
      (slice (half * rank) (half * (rank + 1)) d) =
      .ok (front ++ (firstChunk half rank (extendChunks half cpSize zero d) ++
        (List.replicate half zero ++ back))) := by
    have hslot : (List.replicate half zero).length = half := List.length_replicate
    rw [Nat.two_mul, List.replicate_add, List.append_assoc, ← hfront]
    rcases firstChunk_extendChunks zero hrank hreach with
      ⟨hchunk, hchunkLength⟩ | ⟨value, hchunk, hvalue⟩
    · have hassign := assignSlice_middle front (List.replicate half zero ++ back)
        (hchunkLength.trans hslot.symm)
      rw [hslot] at hassign
      rw [hassign, hchunk]
    · have hassign := assignSlice_middle_singleton front (List.replicate half zero)
        (List.replicate half zero ++ back) value
      rw [hslot] at hassign
      rw [hchunk, hassign, hvalue]
  have hlow : 2 * (cpSize * half) - half * rank =
      2 * (cpSize * half) - half * (rank + 1) + half := by
    rw [Nat.mul_comm half, Nat.mul_comm half]
    omega
  have hroom : 2 * (cpSize * half) - half * (rank + 1) + half ≤ 2 * (cpSize * half) := by
    rw [Nat.mul_comm half]
    omega
  have hremaining := writeClamped_eq false
    (front ++ firstChunk half rank (extendChunks half cpSize zero d)) back d zero hroom
  rw [hfirst, secondChunk_extendChunks hrank hlength hreach]
  simp only [bind, Except.bind]
  rw [hlow, Nat.mul_comm (rank + 1), Nat.mul_comm rank, hlow, ← hfront]
  simpa only [List.length_append, hfirstLength, List.append_assoc] using hremaining

/-- A sequence is put together when every rank holds its chunks from the same row
on. -/
theorem gatherSequence_chunks (strict : Bool) {cpSize half seqStart seqEnd : ℕ}
    {outputs : List (List α)} {items : List α} (garbage : ℕ → α) (seqLen : ℕ)
    (hcp : 0 < cpSize) (hend : seqEnd - seqStart = 2 * (cpSize * half))
    (hlength : items.length = 2 * (cpSize * half))
    (houtputs : ∀ rank < cpSize, ∃ front back,
      outputs.getD rank [] =
          front ++ ((firstChunk half rank items ++ secondChunk half rank items) ++ back) ∧
        front.length = seqStart / cpSize) :
    gatherSequence strict cpSize outputs garbage seqStart seqEnd seqLen =
      .ok (items.take seqLen) := by
  have hshare : 2 * (cpSize * half) / cpSize = 2 * half := by
    rw [Nat.mul_left_comm, Nat.mul_div_cancel_left _ hcp]
  have hhalf : 2 * half / 2 = half := Nat.mul_div_cancel_left half (by decide)
  have hhalves : ∀ rank < cpSize,
      rankHalves (seqStart / cpSize) half (2 * half) (outputs.getD rank []) =
        (firstChunk half rank items, secondChunk half rank items) := by
    intro rank hrank
    obtain ⟨front, back, hrows, hfront⟩ := houtputs rank hrank
    have hfirst := length_firstChunk hrank hlength
    have hsecond := length_secondChunk hrank hlength
    have hboth : (firstChunk half rank items ++ secondChunk half rank items).length =
        2 * half := by
      rw [List.length_append, hfirst, hsecond, Nat.two_mul]
    rw [hrows, ← hfront, rankHalves]
    congr 1
    · rw [slice_within_take (by omega), List.take_left' hfirst]
    · rw [slice_within _ hboth.ge, slice, List.take_of_length_le hboth.le,
        List.drop_left' hfirst]
  have hbuffer : ((List.range (2 * half * cpSize)).map garbage).length = items.length := by
    rw [List.length_map, List.length_range, hlength, Nat.mul_assoc, Nat.mul_comm cpSize]
  rw [gatherSequence, hend, hshare, hhalf]
  apply bind_eq_ok.mpr
  exact ⟨_, joinHalves_chunks strict _ hlength hbuffer hhalves, rfl⟩

end OneShotOPD.Mcore
