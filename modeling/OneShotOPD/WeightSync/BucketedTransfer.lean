import OneShotOPD.WeightSync.RoundTrip

/-!
# Bucketed transfer through shared memory

Sender and receiver share one bucket.  The sender writes whole weights into it,
and hands the bucket over when the next weight does not fit; the receiver
answers only when it has used all weights of the bucket, so it reads what the
sender has written.  A weight larger than the bucket is shared by its own
handle, which exists for device memory only.
-/

namespace OneShotOPD.WeightSync

open Checks FirstFit

structure TensorMetadata where
  name : String
  shape : List ℕ
  dtype : Dtype
  offset : ℕ
  /-- The tensor behind the handle. -/
  handle : Option Weight

/-- The communication buffer that both sides map. -/
structure SharedBuffer (bucketSize : ℕ) where
  bytes : List UInt8
  length_bytes : bytes.length = bucketSize

structure BucketState where
  buffer : List UInt8
  bucketMeta : Dict String TensorMetadata
  offset : ℕ
  /-- The calls of `on_bucket_received`. -/
  received : List (List Weight × Bool)

/-- One entry of a message, as the receiver sees it. -/
def receiveWeight (buffer : List UInt8) (name : String) (tensorMeta : TensorMetadata) :
    Except TransferError Weight :=
  match tensorMeta.handle with
  | some tensor => .ok { tensor with name }
  | none =>
      (sliceOf buffer tensorMeta.offset
        (tensorMeta.dtype.itemsize * tensorMeta.shape.prod)).viewAs name tensorMeta.shape
          tensorMeta.dtype

def receiveBucket (buffer : List UInt8) (bucketMeta : Dict String TensorMetadata) :
    Except TransferError (List Weight) :=
  bucketMeta.entries.mapM fun entry => receiveWeight buffer entry.1 entry.2

/-- Send the metadata of a message and wait for the receiver. -/
def sendMessage (state : BucketState) (bucketMeta : Dict String TensorMetadata)
    (isLast : Bool) : Except TransferError BucketState := do
  let weights ← receiveBucket state.buffer bucketMeta
  return { state with received := state.received ++ [(weights, isLast)] }

def directSendLargeWeight (state : BucketState) (weight : Weight) :
    Except TransferError BucketState :=
  sendMessage state (Dict.empty.insert weight.name
    { name := weight.name
      shape := weight.shape
      dtype := weight.dtype
      offset := 0
      handle := some weight }) false

/-- The first branch of the loop: the bucket is sent when the weight does not
fit behind what it holds. -/
def makeRoom (bucketSize : ℕ) (state : BucketState) (weight : Weight) :
    Except TransferError BucketState :=
  if bucketSize < state.offset + weight.nbytes ∧ 0 < state.bucketMeta.entries.length then do
    let state ← sendMessage state state.bucketMeta false
    return { state with bucketMeta := .empty, offset := 0 }
  else return state

/-- Write a weight into the bucket, through a view in its own dtype. -/
def putWeight (state : BucketState) (weight : Weight) :
    Except TransferError BucketState := do
  let _ ← (sliceOf state.buffer state.offset weight.nbytes).viewAs weight.name weight.shape
    weight.dtype
  return { state with
    bucketMeta := state.bucketMeta.insert weight.name
      { name := weight.name
        shape := weight.shape
        dtype := weight.dtype
        offset := state.offset
        handle := none }
    buffer := writeAt state.buffer state.offset weight.data
    offset := state.offset + weight.nbytes }

/-- One round of the loop of `async_send_weights`. -/
def sendWeight (bucketSize : ℕ) (useShm : Bool) (state : BucketState) (weight : Weight) :
    Except TransferError BucketState := do
  let state ← makeRoom bucketSize state weight
  if bucketSize < state.offset + weight.nbytes then
    raiseIf (useShm = true) (.tooLarge weight.name weight.shape weight.dtype)
    directSendLargeWeight state weight
  else putWeight state weight

/-- A whole transfer, with what the receiver hands on. -/
def bucketedTransfer {bucketSize : ℕ} (buffer : SharedBuffer bucketSize) (useShm : Bool)
    (weights : List Weight) : Except TransferError (List (List Weight × Bool)) := do
  let state ← weights.foldlM (sendWeight bucketSize useShm) ⟨buffer.bytes, .empty, 0, []⟩
  let state ← sendMessage state state.bucketMeta true
  return state.received

/-! ## What the bucket holds -/

/-- The weights that are sent: with shared memory the sender gives up at the
first weight that is larger than the bucket. -/
def sentWeights (bucketSize : ℕ) (useShm : Bool) (weights : List Weight) : List Weight :=
  weights.takeWhile fun weight => ¬ (useShm ∧ bucketSize < weight.nbytes)

/-- When the weights that are sent are put into buckets in order, each starts
in its bucket at a multiple of its element size. -/
def WeightsAligned (bucketSize : ℕ) (useShm : Bool) (weights : List Weight) : Prop :=
  ∀ runs, Division bucketSize Weight.nbytes (sentWeights bucketSize useShm weights) runs →
    ∀ start weight, StartsAt Weight.nbytes runs start weight →
      weight.dtype.itemsize ∣ start

def AlignedIn (runs : List (List Weight)) : Prop :=
  ∀ placed ∈ runs.flatMap (starts Weight.nbytes 0), placed.1.dtype.itemsize ∣ placed.2

theorem weightsAligned_iff_fill (bucketSize : ℕ) (useShm : Bool) (weights : List Weight) :
    WeightsAligned bucketSize useShm weights ↔
      AlignedIn (fill bucketSize Weight.nbytes [] (sentWeights bucketSize useShm weights)) := by
  constructor
  · intro haligned placed hplaced
    exact haligned _ (division_iff.mpr rfl) placed.2 placed.1
      (startsAt_iff_mem.mpr hplaced)
  · intro haligned runs hdivision start weight hstart
    obtain rfl := division_iff.mp hdivision
    exact haligned (weight, start) (startsAt_iff_mem.mp hstart)

instance (runs : List (List Weight)) : Decidable (AlignedIn runs) :=
  inferInstanceAs (Decidable (∀ placed ∈ _, _))

instance (bucketSize : ℕ) (useShm : Bool) (weights : List Weight) :
    Decidable (WeightsAligned bucketSize useShm weights) :=
  decidable_of_iff _ (weightsAligned_iff_fill bucketSize useShm weights).symm

theorem alignedIn_cons (run : List Weight) (runs : List (List Weight)) :
    AlignedIn (run :: runs) ↔ AlignedIn [run] ∧ AlignedIn runs := by
  simp only [AlignedIn, List.flatMap_cons, List.flatMap_nil, List.append_nil,
    List.forall_mem_append]

theorem alignedIn_append_singleton (run : List Weight) (weight : Weight) :
    AlignedIn [run ++ [weight]] ↔
      AlignedIn [run] ∧ weight.dtype.itemsize ∣ total Weight.nbytes run := by
  simp only [AlignedIn, List.flatMap_cons, List.flatMap_nil, List.append_nil,
    starts_append, List.forall_mem_append, starts_cons, starts_nil,
    List.forall_mem_singleton, Nat.zero_add]

/-- The bucket holds weights that are all aligned. -/
structure Holding (bucketSize : ℕ) (state : BucketState) (current : List Weight) : Prop where
  length : state.buffer.length = bucketSize
  offset : state.offset = total Weight.nbytes current
  le : state.offset ≤ bucketSize
  empty : current = [] ↔ state.bucketMeta.entries.length = 0
  aligned : AlignedIn [current]
  entries : ∀ entry ∈ state.bucketMeta.entries, entry.2.handle = none ∧
    entry.2.dtype.itemsize ∣ entry.2.offset ∧
    entry.2.offset + entry.2.dtype.itemsize * entry.2.shape.prod ≤ bucketSize

section Run

variable {bucketSize : ℕ} {state : BucketState} {current : List Weight} {weight : Weight}

/-- The receiver can use a bucket whose weights are aligned. -/
theorem exists_sendMessage (hholding : Holding bucketSize state current) (isLast : Bool) :
    ∃ weights, sendMessage state state.bucketMeta isLast =
      .ok { state with received := state.received ++ [(weights, isLast)] } := by
  have hview : ∀ entry ∈ state.bucketMeta.entries, ∃ received,
      receiveWeight state.buffer entry.1 entry.2 = .ok received := by
    intro entry hentry
    obtain ⟨hhandle, haligned, hle⟩ := hholding.entries entry hentry
    rw [receiveWeight, hhandle]
    refine exists_viewAs_eq_ok haligned ?_ entry.1
    rw [Nat.mul_comm] at hle
    rw [sliceOf, List.length_take, List.length_drop, hholding.length, Nat.mul_comm]
    omega
  obtain ⟨weights, hweights⟩ := exists_mapM_eq_ok hview
  exact ⟨weights, by rw [sendMessage, receiveBucket, hweights]; rfl⟩

/-- After the first branch the bucket is empty, or the weight fits. -/
theorem makeRoom_of_full (hholding : Holding bucketSize state current)
    (hcurrent : current ≠ [])
    (hfull : bucketSize < total Weight.nbytes current + weight.nbytes) :
    ∃ next, makeRoom bucketSize state weight = .ok next ∧ Holding bucketSize next [] := by
  have hnonempty : 0 < state.bucketMeta.entries.length :=
    Nat.pos_of_ne_zero fun hzero => hcurrent (hholding.empty.mpr hzero)
  obtain ⟨weights, hsend⟩ := exists_sendMessage hholding false
  refine ⟨_, by
    rw [makeRoom, hholding.offset, if_pos ⟨hfull, hnonempty⟩, hsend]
    rfl, ?_⟩
  exact ⟨hholding.length, rfl, Nat.zero_le _, by simp [Dict.empty],
    by simp [AlignedIn], by simp [Dict.empty]⟩

theorem makeRoom_of_fits (hholding : Holding bucketSize state current)
    (hfits : current = [] ∨ total Weight.nbytes current + weight.nbytes ≤ bucketSize) :
    makeRoom bucketSize state weight = .ok state := by
  rw [makeRoom, if_neg]
  · rfl
  · rintro ⟨hfull, hnonempty⟩
    rcases hfits with hempty | hfits
    · have hzero := hholding.empty.mp hempty
      omega
    · have hoffset := hholding.offset
      omega

/-- A weight that fits is written, when it is aligned. -/
theorem putWeight_of_fits (hholding : Holding bucketSize state current)
    (hfits : total Weight.nbytes current + weight.nbytes ≤ bucketSize)
    (haligned : weight.dtype.itemsize ∣ total Weight.nbytes current) :
    ∃ next, putWeight state weight = .ok next ∧
      Holding bucketSize next (current ++ [weight]) := by
  obtain ⟨hlength, hoffset, hle, hempty, hall, hentries⟩ := hholding
  have hdata : weight.data.length = weight.nbytes := rfl
  have hslice : (sliceOf state.buffer state.offset weight.nbytes).bytes.length =
      weight.shape.prod * weight.dtype.itemsize := by
    rw [← weight.data_length, sliceOf, List.length_take, List.length_drop, hlength]
    omega
  have hstart : weight.dtype.itemsize ∣ state.offset := hoffset ▸ haligned
  obtain ⟨view, hview⟩ := exists_viewAs_eq_ok hstart hslice weight.name
  refine ⟨_, by rw [putWeight, hview]; rfl, ?_⟩
  constructor
  · simp only
    rw [length_writeAt, hlength]
    omega
  · simp [hoffset]
  · simpa [hoffset] using hfits
  · simp [Dict.entries_insert_ne_nil]
  · exact (alignedIn_append_singleton current weight).mpr ⟨hall, haligned⟩
  · intro entry hentry
    rcases Dict.mem_entries_insert hentry with rfl | hold
    · refine ⟨rfl, hstart, ?_⟩
      simp only
      rw [Nat.mul_comm, ← weight.data_length]
      omega
    · exact hentries entry hold

theorem putWeight_misaligned (hholding : Holding bucketSize state current)
    (hmisaligned : ¬ weight.dtype.itemsize ∣ total Weight.nbytes current) :
    putWeight state weight = .error (.misaligned weight.name) := by
  rw [← hholding.offset] at hmisaligned
  rw [putWeight, Slice.viewAs, if_neg]
  · rfl
  · exact fun hmod => hmisaligned (Nat.dvd_of_mod_eq_zero hmod)

/-- How a run of the sender can end: in the next state, with a weight that is
too large for shared memory, or in a view that is not aligned. -/
def Outcome (bucketSize : ℕ) (aligned : Prop) (result : Except TransferError BucketState) :
    Prop :=
  aligned ∧ ((∃ final last, result = .ok final ∧ Holding bucketSize final last) ∨
      ∃ name shape dtype, result = .error (.tooLarge name shape dtype)) ∨
    ¬ aligned ∧ ∃ name, result = .error (.misaligned name)

theorem sentWeights_cons_of_le {useShm : Bool} {weights : List Weight}
    (hle : weight.nbytes ≤ bucketSize) :
    sentWeights bucketSize useShm (weight :: weights) =
      weight :: sentWeights bucketSize useShm weights := by
  simp [sentWeights, hle]

/-- The rounds of the sender, when the first weight finds room. -/
private theorem outcome_of_room {useShm : Bool} {weights : List Weight}
    (ih : ∀ {state : BucketState} {current : List Weight},
      Holding bucketSize state current → Outcome bucketSize
        (AlignedIn (fill bucketSize Weight.nbytes current
          (sentWeights bucketSize useShm weights)))
        (weights.foldlM (sendWeight bucketSize useShm) state))
    (hholding : Holding bucketSize state current)
    (hroom : current = [] ∨ total Weight.nbytes current + weight.nbytes ≤ bucketSize) :
    Outcome bucketSize
      (AlignedIn (fill bucketSize Weight.nbytes current
        (sentWeights bucketSize useShm (weight :: weights))))
      ((weight :: weights).foldlM (sendWeight bucketSize useShm) state) := by
  have hmake := makeRoom_of_fits hholding hroom
  by_cases hlarge : bucketSize < weight.nbytes
  · obtain rfl : current = [] := by
      rcases hroom with hempty | hfits
      · exact hempty
      · omega
    have hover : bucketSize < state.offset + weight.nbytes := by omega
    cases useShm with
    | true =>
        refine .inl ⟨?_, .inr ⟨weight.name, weight.shape, weight.dtype, ?_⟩⟩
        · simp [sentWeights, hlarge, fill_nil, AlignedIn]
        · rw [List.foldlM_cons, sendWeight, hmake]
          change ((if _ then _ else _) >>= _) = _
          rw [if_pos hover]
          rfl
    | false =>
        have hsent : sentWeights bucketSize false (weight :: weights) =
            weight :: sentWeights bucketSize false weights := by
          simp [sentWeights]
        have hone : AlignedIn [[weight]] := by
          simp [AlignedIn]
        rw [hsent, fill_cons_of_large hlarge, alignedIn_cons, and_iff_right hone,
          List.foldlM_cons, sendWeight, hmake]
        change Outcome _ _ ((if _ then _ else _) >>= _)
        rw [if_pos hover]
        exact @ih { state with received := state.received ++ [([weight], false)] } []
          ⟨hholding.length, hholding.offset, hholding.le, hholding.empty, hholding.aligned,
            hholding.entries⟩
  · have hle := Nat.not_lt.mp hlarge
    have hfits : total Weight.nbytes current + weight.nbytes ≤ bucketSize := by
      rcases hroom with rfl | hfits
      · simpa using hle
      · exact hfits
    have hunder : ¬ bucketSize < state.offset + weight.nbytes := by
      rw [hholding.offset]
      exact Nat.not_lt.mpr hfits
    rw [sentWeights_cons_of_le hle, fill_cons_of_fits hroom, List.foldlM_cons, sendWeight,
      hmake]
    change Outcome _ _ ((if _ then _ else _) >>= _)
    rw [if_neg hunder]
    by_cases haligned : weight.dtype.itemsize ∣ total Weight.nbytes current
    · obtain ⟨next, hput, hnext⟩ := putWeight_of_fits hholding hfits haligned
      rw [hput]
      exact ih hnext
    · rw [putWeight_misaligned hholding haligned]
      refine .inr ⟨fun hall => haligned ?_, weight.name, rfl⟩
      obtain ⟨more, rest, hfill⟩ := @fill_head _ bucketSize Weight.nbytes
        (current ++ [weight]) (by simp) (sentWeights bucketSize useShm weights)
      rw [hfill, alignedIn_cons] at hall
      refine hall.1 (weight, total Weight.nbytes current) ?_
      simp [starts_append]

/-- The rounds of the sender, from a bucket that holds aligned weights. -/
theorem foldlM_sendWeight (useShm : Bool) (weights : List Weight)
    (hholding : Holding bucketSize state current) :
    Outcome bucketSize
      (AlignedIn (fill bucketSize Weight.nbytes current
        (sentWeights bucketSize useShm weights)))
      (weights.foldlM (sendWeight bucketSize useShm) state) := by
  induction weights generalizing state current with
  | nil =>
      refine .inl ⟨?_, .inl ⟨state, current, rfl, hholding⟩⟩
      simp only [sentWeights, List.takeWhile_nil, fill_nil]
      split
      · simp [AlignedIn]
      · exact hholding.aligned
  | cons weight weights ih =>
      by_cases hfull : current ≠ [] ∧
          bucketSize < total Weight.nbytes current + weight.nbytes
      · obtain ⟨hcurrent, hfull⟩ := hfull
        obtain ⟨next, hmake, hnext⟩ := makeRoom_of_full hholding hcurrent hfull
        have hsame : sendWeight bucketSize useShm state weight =
            sendWeight bucketSize useShm next weight := by
          rw [sendWeight, sendWeight, hmake, makeRoom_of_fits hnext (.inl rfl)]
        have hfill : AlignedIn (fill bucketSize Weight.nbytes current
            (sentWeights bucketSize useShm (weight :: weights))) ↔
              AlignedIn (fill bucketSize Weight.nbytes []
                (sentWeights bucketSize useShm (weight :: weights))) := by
          cases hsent : sentWeights bucketSize useShm (weight :: weights) with
          | nil => simpa [fill_nil, hcurrent, AlignedIn] using hholding.aligned
          | cons first rest =>
              obtain rfl : first = weight := by
                rw [sentWeights, List.takeWhile_cons] at hsent
                split at hsent
                · exact (List.cons.inj hsent).1.symm
                · cases hsent
              rw [fill_eq_cons_of_full hcurrent hfull, alignedIn_cons,
                and_iff_right hholding.aligned]
        rw [hfill, List.foldlM_cons, hsame, ← List.foldlM_cons]
        exact outcome_of_room ih hnext (.inl rfl)
      · refine outcome_of_room ih hholding ?_
        by_cases hempty : current = []
        · exact .inl hempty
        · exact .inr (Nat.not_lt.mp fun hover => hfull ⟨hempty, hover⟩)

end Run

theorem bucketedTransfer_misaligned_iff {bucketSize : ℕ} (buffer : SharedBuffer bucketSize)
    (useShm : Bool) (weights : List Weight) :
    (∀ name, bucketedTransfer buffer useShm weights ≠ .error (.misaligned name)) ↔
      WeightsAligned bucketSize useShm weights := by
  have hstart : Holding bucketSize ⟨buffer.bytes, .empty, 0, []⟩ [] :=
    ⟨buffer.length_bytes, rfl, Nat.zero_le _, by simp [Dict.empty], by simp [AlignedIn],
      by simp [Dict.empty]⟩
  rw [weightsAligned_iff_fill, bucketedTransfer]
  rcases foldlM_sendWeight useShm weights hstart with
    ⟨haligned, ⟨final, last, hrun, hlast⟩ | ⟨name, shape, dtype, hrun⟩⟩ |
      ⟨hmisaligned, name, hrun⟩
  · obtain ⟨received, hsend⟩ := exists_sendMessage hlast true
    rw [hrun]
    change (∀ name, (sendMessage final final.bucketMeta true >>= _) ≠ _) ↔ _
    rw [hsend]
    exact ⟨fun _ => haligned, fun _ name heq => by cases heq⟩
  · rw [hrun]
    exact ⟨fun _ => haligned, fun _ name heq => by cases heq⟩
  · rw [hrun]
    exact ⟨fun hnever => absurd rfl (hnever name), fun haligned => absurd haligned hmisaligned⟩

/-- Reinterpreting a slice of a bucket never raises exactly when the running
sums of the sizes are multiples of the element sizes.  The chunks of two weights
of one name are told apart by an assertion of the sender only. -/
theorem views_never_raise_iff {bucketSize : ℕ} (hbucket : 0 < bucketSize)
    (buffer : SharedBuffer bucketSize) (useShm : Bool) (trainer rollout : Buffers bucketSize)
    (weights : List Weight) :
    ((∀ name, bucketedTransfer buffer useShm weights ≠ .error (.misaligned name)) ↔
        WeightsAligned bucketSize useShm weights) ∧
      ((weights.map Weight.name).Nodup →
        ((∀ name, transfer hbucket trainer rollout weights ≠ .error (.misaligned name)) ↔
          PiecesAligned bucketSize weights)) := by
  constructor
  · exact bucketedTransfer_misaligned_iff buffer useShm weights
  · intro hnames
    rw [piecesAligned_iff hbucket]
    exact transfer_misaligned_iff hbucket trainer rollout hnames

def sharedBuffer (bucketSizeMb : ℕ) : SharedBuffer (bucketSizeMb <<< 20) where
  bytes := List.replicate (bucketSizeMb <<< 20) 0
  length_bytes := List.length_replicate

def halfScale : Weight := ⟨"scale", [1], float16, List.replicate 2 2, rfl⟩

/-- The larger elements first: nothing is raised. -/
theorem gate_halfScale_never_raise :
    (∀ name, bucketedTransfer (sharedBuffer 1) false [gate, halfScale] ≠
        .error (.misaligned name)) ∧
      ∀ name, transfer (by decide : 0 < 1 <<< 20) (prepare _) (prepare _)
        [gate, halfScale] ≠ .error (.misaligned name) := by
  have hiff := views_never_raise_iff (by decide) (sharedBuffer 1) false (prepare _)
    (prepare _) [gate, halfScale]
  exact ⟨hiff.1.mpr (by decide), (hiff.2 (by decide)).mpr (by decide)⟩

/-- A half precision scale in front of a full precision gate. -/
theorem halfScale_gate_raises :
    (∃ name, bucketedTransfer (sharedBuffer 1) false [halfScale, gate] =
        .error (.misaligned name)) ∧
      ∃ name, transfer (by decide : 0 < 1 <<< 20) (prepare _) (prepare _)
        [halfScale, gate] = .error (.misaligned name) := by
  constructor
  · by_contra hnever
    rw [not_exists, bucketedTransfer_misaligned_iff] at hnever
    exact absurd hnever (by decide)
  · by_contra hnever
    rw [not_exists, transfer_misaligned_iff _ _ _ (by decide), ← piecesAligned_iff] at hnever
    exact absurd hnever (by decide)

end OneShotOPD.WeightSync
