import OneShotOPD.Protocol.RowMoves
import Mathlib.Tactic.Ring

/-!
# Pieces of a table

How a table is cut into pieces for the workers, and how it is padded so that
the pieces are equal.  The pieces always contain all rows in order; what can
fail is that there are fewer of them than asked for.
-/

namespace OneShotOPD.Protocol.DataProto

open Checks

variable {κ α β μ : Type}

theorem sum_chunkSizes (batchSize chunks : ℕ) : (chunkSizes batchSize chunks).sum = batchSize := by
  have hdiv := Nat.div_add_mod' batchSize ((batchSize + chunks - 1) / chunks)
  simp only [chunkSizes]
  split
  next hmod => simpa [hmod] using hdiv
  next => simpa using hdiv

theorem sum_arraySplitSizes (length : ℕ) {chunks : ℕ} (hchunks : 0 < chunks) :
    (arraySplitSizes length chunks).sum = length := by
  have hmod := Nat.mod_lt length hchunks
  have hsplit : length % chunks + (chunks - length % chunks) = chunks := by omega
  have hdiv := Nat.div_add_mod' length chunks
  simp only [arraySplitSizes, List.sum_append_nat, List.sum_replicate_nat]
  calc length % chunks * (length / chunks + 1) +
        (chunks - length % chunks) * (length / chunks)
      = (length % chunks + (chunks - length % chunks)) * (length / chunks) +
          length % chunks := by ring
    _ = length := by rw [hsplit, Nat.mul_comm, hdiv]

theorem sum_pieceSizes (data : DataProto κ α β μ) {chunks : ℕ} (hchunks : 0 < chunks) :
    (data.pieceSizes chunks).sum = data.len := by
  unfold pieceSizes
  split
  next => exact sum_chunkSizes _ _
  next => exact sum_arraySplitSizes _ hchunks

/-- A length that is a positive multiple is cut into equal pieces. -/
theorem pieceSizes_of_mul {data : DataProto κ α β μ} {chunks size : ℕ} (hchunks : 0 < chunks)
    (hsize : 0 < size) (hlen : data.len = chunks * size) :
    data.pieceSizes chunks = List.replicate chunks size := by
  unfold pieceSizes
  split
  next =>
    have hround : (chunks * size + chunks - 1) / chunks = size := by
      rw [Nat.add_sub_assoc hchunks, Nat.mul_add_div hchunks,
        Nat.div_eq_of_lt (Nat.sub_lt hchunks Nat.one_pos), Nat.add_zero]
    rw [chunkSizes, hlen, hround, Nat.mul_div_cancel _ hsize, Nat.mul_mod_left, if_pos rfl,
      List.append_nil]
  next =>
    rw [arraySplitSizes, hlen, Nat.mul_mod_right, Nat.mul_div_cancel_left _ hchunks,
      List.replicate_zero, List.nil_append, Nat.sub_zero]

/-- The row positions of the pieces. -/
def pieces (sizes : List ℕ) (count : ℕ) : List (List ℕ) :=
  sizes.splitLengths (List.range count)

@[simp]
theorem length_pieces (sizes : List ℕ) (count : ℕ) :
    (pieces sizes count).length = sizes.length :=
  List.length_splitLengths _ _

theorem flatten_pieces {sizes : List ℕ} {count : ℕ} (hsum : sizes.sum = count) :
    (pieces sizes count).flatten = List.range count :=
  List.flatten_splitLengths _ _ (by simp [hsum])

/-- A table can be cut into as many pieces as asked for. -/
structure Splits (data : DataProto κ α β μ) (autoPadding : Bool) (chunks : ℕ) : Prop where
  equal : data.isPaddingEnabled autoPadding ∨ chunks ∣ data.len
  enough : (data.pieceSizes chunks).length = chunks

theorem splits_of_dvd {data : DataProto κ α β μ} {autoPadding : Bool} {chunks : ℕ}
    (hchunks : 0 < chunks) (hlen : 0 < data.len) (hdvd : chunks ∣ data.len) :
    data.Splits autoPadding chunks := by
  obtain ⟨size, hsize⟩ := hdvd
  have hpos : 0 < size := Nat.pos_of_mul_pos_left (hsize ▸ hlen)
  exact ⟨.inr ⟨size, hsize⟩, by rw [pieceSizes_of_mul hchunks hpos hsize, List.length_replicate]⟩

/-- `chunk` raises exactly when the table cannot be cut so. -/
theorem chunk_of_splits {data : DataProto κ α β μ} {autoPadding : Bool} {chunks : ℕ}
    (hchunks : 0 < chunks) (hsplits : data.Splits autoPadding chunks) :
    data.chunk autoPadding chunks =
      .ok ((pieces (data.pieceSizes chunks) data.len).map fun piece => data.gather piece) := by
  have hequal : ¬ (!data.isPaddingEnabled autoPadding && data.len % chunks != 0) = true := by
    rcases hsplits.equal with henabled | hdvd
    · simp [henabled]
    · simp [Nat.mod_eq_zero_of_dvd hdvd]
  rw [chunk, if_neg hchunks.ne', if_neg hequal, if_neg (not_not.mpr hsplits.enough)]
  rfl

theorem chunk_of_not_splits {data : DataProto κ α β μ} {autoPadding : Bool} {chunks : ℕ}
    (hsplits : ¬ data.Splits autoPadding chunks) :
    ∃ error, data.chunk autoPadding chunks = .error error := by
  by_cases hchunks : chunks = 0
  · exact ⟨_, if_pos hchunks⟩
  by_cases hequal : (!data.isPaddingEnabled autoPadding && data.len % chunks != 0) = true
  · exact ⟨_, by rw [chunk, if_neg hchunks, if_pos hequal]⟩
  · have henough : (data.pieceSizes chunks).length ≠ chunks := by
      intro henough
      refine hsplits ⟨?_, henough⟩
      simpa [Nat.dvd_iff_mod_eq_zero, or_iff_not_imp_left] using hequal
    exact ⟨_, by rw [chunk, if_neg hchunks, if_neg hequal, if_pos henough]⟩

/-- The pieces of `pad_dataproto_to_divisor` are rows of the table, as many as
are missing. -/
theorem paddingProtos_eq {data : DataProto κ α β μ} (hlen : 0 < data.len) (remainingPad : ℕ) :
    ∃ parts : List (List ℕ), data.paddingProtos remainingPad =
        parts.map (fun part => data.gather part) ∧
      (∀ position ∈ parts.flatten, position < data.len) ∧
      parts.flatten.length = remainingPad := by
  induction remainingPad using Nat.strong_induction_on with
  | _ remainingPad ih =>
      by_cases hstop : remainingPad = 0
      · exact ⟨[], by rw [paddingProtos, dif_pos (.inl hstop)]; rfl, by simp, by simp [hstop]⟩
      · obtain ⟨parts, hparts, hrange, hlength⟩ :=
          ih (remainingPad - min remainingPad data.len) (by omega)
        refine ⟨(List.range data.len).take (min remainingPad data.len) :: parts, ?_, ?_, ?_⟩
        · rw [paddingProtos, dif_neg (by omega)]
          exact congrArg (data.sliceTo (min remainingPad data.len) :: ·) hparts
        · intro position hposition
          rw [List.flatten_cons] at hposition
          rcases List.mem_append.mp hposition with hhead | hrest
          · exact List.mem_range.mp (List.mem_of_mem_take hhead)
          · exact hrange position hrest
        · rw [List.flatten_cons, List.length_append, hlength, List.length_take,
            List.length_range]
          omega

variable [DecidableEq κ] [ValueEq μ]

/-- Padding to a divisor puts rows of the table behind all of its rows. -/
theorem padToDivisor_eq {data : DataProto κ α β μ} (hcomparable : data.metaInfo.Comparable)
    (hlen : 0 < data.len) {sizeDivisor : ℕ} (hdivisor : 0 < sizeDivisor) :
    ∃ padded extra, data.padToDivisor sizeDivisor = .ok (padded, extra.length) ∧
      padded.Agrees (data.gather (List.range data.len ++ extra)) ∧
      (∀ position ∈ extra, position < data.len) ∧
      sizeDivisor ∣ data.len + extra.length := by
  by_cases hmod : data.len % sizeDivisor ≠ 0
  · obtain ⟨parts, hparts, hrange, hlength⟩ :=
      paddingProtos_eq hlen (sizeDivisor - data.len % sizeDivisor)
    obtain ⟨joined, hjoined, hagrees⟩ := concat_gather hcomparable (List.range data.len) parts
    rw [List.map_cons, gather_range, ← hparts] at hjoined
    refine ⟨joined, parts.flatten, ?_, hagrees, hrange, ?_⟩
    · rw [padToDivisor, if_neg hdivisor.ne', if_pos hmod, hlength]
      exact bind_eq_ok.mpr ⟨joined, hjoined, rfl⟩
    · have hlt := Nat.mod_lt data.len hdivisor
      have hdiv := Nat.div_add_mod data.len sizeDivisor
      refine ⟨data.len / sizeDivisor + 1, ?_⟩
      rw [hlength, Nat.mul_add, Nat.mul_one]
      omega
  · refine ⟨data, [], ?_, ?_, by simp, ?_⟩
    · rw [padToDivisor, if_neg hdivisor.ne', if_neg hmod]
      rfl
    · rw [List.append_nil, gather_range]
      exact Agrees.rfl' data
    · exact Nat.dvd_of_mod_eq_zero (not_not.mp hmod)

omit [DecidableEq κ] [ValueEq μ] in
/-- Unpadding takes away what padding put behind. -/
theorem unpad_agrees {data padded : DataProto κ α β μ} {extra : List ℕ}
    (hpadded : padded.Agrees (data.gather (List.range data.len ++ extra)))
    (hextra : ∀ position ∈ extra, position < data.len) :
    (padded.unpad extra.length).Agrees data := by
  have hlen : padded.len = data.len + extra.length := by
    rw [hpadded.len_eq, len_gather_of_lt (mem_padded_lt hextra), List.length_append,
      List.length_range]
  by_cases hzero : extra.length = 0
  · rw [List.eq_nil_of_length_eq_zero hzero, List.append_nil, gather_range] at hpadded
    rw [unpad, if_neg (not_not.mpr hzero)]
    exact hpadded
  · have hagrees := hpadded.gather ((List.range (data.len + extra.length)).take data.len)
    rw [gather_take_gather data hextra] at hagrees
    rw [unpad, if_pos hzero, sliceButLast, hlen, Nat.add_sub_cancel]
    exact hagrees

end OneShotOPD.Protocol.DataProto
