import OneShotOPD.WeightSync.Chunks
import OneShotOPD.Core.Dict
import OneShotOPD.Core.FirstFit

/-!
# Streaming weights through broadcast buckets

The trainer fills a bucket with the chunks of its weights and broadcasts it
when the next chunk does not fit; the last bucket is marked.  Sender and
receiver each alternate between two buffers, so that one bucket can be used
while the next is under way.
-/

namespace OneShotOPD.WeightSync

open Checks FirstFit

/-- The two byte buffers of an engine. -/
structure Buffers (bucketSize : ℕ) where
  sendBuf : List UInt8
  recvBuf : List UInt8
  length_sendBuf : sendBuf.length = bucketSize
  length_recvBuf : recvBuf.length = bucketSize

def prepare (bucketSize : ℕ) : Buffers bucketSize where
  sendBuf := List.replicate bucketSize 0
  recvBuf := List.replicate bucketSize 0
  length_sendBuf := List.length_replicate
  length_recvBuf := List.length_replicate

/-- One broadcast, as the receivers see it. -/
structure Message where
  bucket : List UInt8
  bucketMeta : Dict String TensorMeta
  isLast : Bool
  length : ℕ

/-! ## The trainer -/

structure SendState where
  sendBuf : List UInt8
  recvBuf : List UInt8
  bucketMeta : Dict String TensorMeta
  offset : ℕ
  /-- The broadcasts that have been issued. -/
  sent : List Message

def SendState.message (state : SendState) (isLast : Bool) : Message where
  bucket := state.sendBuf.take state.offset
  bucketMeta := state.bucketMeta
  isLast
  length := state.offset

/-- Broadcast the bucket and go on with the other buffer. -/
def SendState.flush (state : SendState) : SendState where
  sendBuf := state.recvBuf
  recvBuf := state.sendBuf
  bucketMeta := .empty
  offset := 0
  sent := state.sent ++ [state.message false]

/-- Write a chunk behind what the bucket holds. -/
def SendState.put (state : SendState) (item : Chunk) : SendState :=
  let (tensorMeta, chunk) := item
  { state with
    bucketMeta := state.bucketMeta.insert tensorMeta.name
      { tensorMeta with offset := some state.offset }
    sendBuf := writeAt state.sendBuf state.offset chunk
    offset := state.offset + tensorMeta.chunkSize }

/-- One round of the loop of `send_weights`. -/
def sendStep (bucketSize : ℕ) (state : SendState) (item : Chunk) :
    Except TransferError SendState :=
  let tensorMeta := item.1
  let state := if bucketSize < state.offset + tensorMeta.chunkSize then state.flush
    else state
  do
    raiseIf (bucketSize < state.offset + tensorMeta.chunkSize)
      (.assertion "offset + tensor_meta.chunk_size <= self.bucket_size")
    raiseIf (tensorMeta.name ∈ state.bucketMeta.keys)
      (.assertion "tensor_meta.name not in bucket_meta")
    return state.put item

def sendWeights {bucketSize : ℕ} (hbucket : 0 < bucketSize)
    (buffers : Buffers bucketSize) (weights : List Weight) :
    Except TransferError (List Message) := do
  let state ← (splitWeightChunks bucketSize hbucket weights).foldlM
    (sendStep bucketSize) ⟨buffers.sendBuf, buffers.recvBuf, .empty, 0, []⟩
  return state.sent ++ [state.message true]

/-! ## The rollout workers -/

/-- `send_buf[offset : offset + chunk_size]` with its metadata. -/
def chunkOf (sendBuf : List UInt8) (tensorMeta : TensorMeta) :
    Except TransferError (TensorMeta × Slice) :=
  match tensorMeta.offset with
  | some offset => .ok (tensorMeta, sliceOf sendBuf offset tensorMeta.chunkSize)
  | none => .error (.unplaced tensorMeta.name)

def chunksOf (sendBuf : List UInt8) (metadata : Message) :
    Except TransferError (List (TensorMeta × Slice)) :=
  metadata.bucketMeta.entries.mapM fun entry => chunkOf sendBuf entry.2

/-- The loop of `_receive_weight_chunks`, entered with a bucket in `sendBuf` and
the broadcasts that are still to come. -/
def receiveLoop (sendBuf recvBuf : List UInt8) (metadata : Message) :
    List Message → Except TransferError (List (TensorMeta × Slice))
  | [] =>
      if metadata.isLast then chunksOf sendBuf metadata else .error .waiting
  | next :: messages =>
      if metadata.isLast then chunksOf sendBuf metadata
      else do
        let chunks ← chunksOf sendBuf metadata
        let rest ← receiveLoop (writeAt recvBuf 0 next.bucket) sendBuf next messages
        return chunks ++ rest

def receiveWeightChunks {bucketSize : ℕ} (buffers : Buffers bucketSize) :
    List Message → Except TransferError (List (TensorMeta × Slice))
  | [] => .error .waiting
  | first :: messages =>
      receiveLoop (writeAt buffers.recvBuf 0 first.bucket) buffers.sendBuf first messages

/-- A whole update: `send_weights` of the trainer and `receive_weights` of a
rollout worker. -/
def transfer {bucketSize : ℕ} (hbucket : 0 < bucketSize)
    (trainer rollout : Buffers bucketSize) (weights : List Weight) :
    Except TransferError (List Weight) := do
  let messages ← sendWeights hbucket trainer weights
  let received ← receiveWeightChunks rollout messages
  mergeWeightChunks bucketSize received

/-! ## What a bucket holds -/

def chunkSize (chunk : Chunk) : ℕ := chunk.1.chunkSize

/-- The chunks of a bucket with the places they are received from. -/
def placedIn (run : List Chunk) : List (TensorMeta × Slice) :=
  (starts chunkSize 0 run).map place

def entriesOf (placed : List (TensorMeta × Slice)) : List (String × TensorMeta) :=
  placed.map fun received => (received.1.name, received.1)

structure WellSized (bucketSize : ℕ) (chunk : Chunk) : Prop where
  pos : 0 < chunkSize chunk
  le : chunkSize chunk ≤ bucketSize
  length : chunk.2.length = chunkSize chunk

/-- The bucket that is being filled holds some chunks. -/
structure Filling (bucketSize : ℕ) (state : SendState) (current : List Chunk) : Prop where
  sendLength : state.sendBuf.length = bucketSize
  recvLength : state.recvBuf.length = bucketSize
  offset : state.offset = total chunkSize current
  bytes : state.sendBuf.take state.offset = current.flatMap Prod.snd
  entries : state.bucketMeta.entries = entriesOf (placedIn current)

/-- A broadcast delivers some chunks. -/
structure Delivers (isLast : Bool) (message : Message) (run : List Chunk) : Prop where
  bucket : message.bucket = run.flatMap Prod.snd
  entries : message.bucketMeta.entries = entriesOf (placedIn run)
  isLast : message.isLast = isLast

/-- A later chunk of the same weight comes only after a full bucket. -/
def FullBefore (bucketSize : ℕ) (earlier later : Chunk) : Prop :=
  earlier.1.name = later.1.name → chunkSize earlier = bucketSize

/-! ## Filling the buckets -/

section Send

variable {bucketSize : ℕ} {state : SendState} {current : List Chunk} {chunk : Chunk}

theorem placedIn_append (first : List Chunk) (last : Chunk) :
    placedIn (first ++ [last]) =
      placedIn first ++ [place (last, total chunkSize first)] := by
  simp [placedIn, starts_append]

theorem Filling.keys (hfilling : Filling bucketSize state current) :
    state.bucketMeta.keys = current.map fun chunk => chunk.1.name := by
  have hnames : (starts chunkSize 0 current).map (fun placed => placed.1.1.name) =
      current.map fun chunk => chunk.1.name := by
    conv_rhs => rw [← @map_fst_starts Chunk chunkSize 0 current, List.map_map]
    rfl
  rw [Dict.keys, hfilling.entries, ← hnames]
  simp [entriesOf, placedIn, place]

theorem Filling.flush (hfilling : Filling bucketSize state current) :
    Filling bucketSize state.flush [] where
  sendLength := hfilling.recvLength
  recvLength := hfilling.sendLength
  offset := rfl
  bytes := rfl
  entries := rfl

theorem Filling.delivers (hfilling : Filling bucketSize state current) (isLast : Bool) :
    Delivers isLast (state.message isLast) current where
  bucket := hfilling.bytes
  entries := hfilling.entries
  isLast := rfl

/-- A chunk that fits is put into the bucket. -/
theorem sendStep_of_fits (hfilling : Filling bucketSize state current)
    (hchunk : WellSized bucketSize chunk)
    (hfits : total chunkSize current + chunkSize chunk ≤ bucketSize)
    (hname : ∀ other ∈ current, other.1.name ≠ chunk.1.name) :
    sendStep bucketSize state chunk = .ok (state.put chunk) ∧
      Filling bucketSize (state.put chunk) (current ++ [chunk]) := by
  have hroom : state.offset + chunk.1.chunkSize ≤ bucketSize := by
    rw [hfilling.offset]
    exact hfits
  have hnew : chunk.1.name ∉ state.bucketMeta.keys := by
    rw [hfilling.keys, List.mem_map]
    rintro ⟨other, hother, heq⟩
    exact hname other hother heq
  constructor
  · simp only [sendStep, raiseIf, if_neg (Nat.not_lt.mpr hroom), if_neg hnew]
    rfl
  · obtain ⟨hsend, hrecv, hoffset, hbytes, hentries⟩ := hfilling
    have hlength : chunk.2.length = chunk.1.chunkSize := hchunk.length
    constructor
    · simp only [SendState.put]
      rw [length_writeAt, hsend]
      rw [hsend, hchunk.length]
      exact hroom
    · exact hrecv
    · simp [SendState.put, hoffset, chunkSize]
    · simp only [SendState.put]
      rw [← hlength, take_writeAt (by omega), hbytes]
      simp
    · simp only [SendState.put]
      rw [Dict.entries_insert_of_not_mem _ _ hnew, hentries, placedIn_append, hoffset]
      simp [entriesOf, place]

/-- For a chunk that does not fit the bucket is broadcast first. -/
theorem sendStep_of_full (hfilling : Filling bucketSize state current)
    (hchunk : WellSized bucketSize chunk)
    (hfull : bucketSize < total chunkSize current + chunkSize chunk) :
    sendStep bucketSize state chunk = sendStep bucketSize state.flush chunk := by
  have hover : bucketSize < state.offset + chunk.1.chunkSize := by
    rw [hfilling.offset]
    exact hfull
  have hfits : ¬ bucketSize < state.flush.offset + chunk.1.chunkSize := by
    have hle : chunk.1.chunkSize ≤ bucketSize := hchunk.le
    simpa [SendState.flush] using hle
  simp only [sendStep, if_pos hover, if_neg hfits]

/-- The broadcasts of a whole update deliver the buckets of the division. -/
theorem foldlM_sendStep {items : List Chunk} (hfilling : Filling bucketSize state current)
    (hsized : ∀ chunk ∈ items, WellSized bucketSize chunk)
    (hfull : (current ++ items).Pairwise (FullBefore bucketSize)) :
    ∃ final last broadcast runs, items.foldlM (sendStep bucketSize) state = .ok final ∧
      final.sent = state.sent ++ broadcast ∧
      List.Forall₂ (Delivers false) broadcast runs ∧ Filling bucketSize final last ∧
      fill bucketSize chunkSize current items =
        runs ++ if last = [] then [] else [last] := by
  induction items generalizing state current with
  | nil => exact ⟨state, current, [], [], rfl, by simp, .nil, hfilling, fill_nil current⟩
  | cons chunk items ih =>
      have hchunk := hsized chunk (by simp)
      have hrest := fun other hother => hsized other (List.mem_cons_of_mem chunk hother)
      rw [List.foldlM_cons]
      by_cases hfits : total chunkSize current + chunkSize chunk ≤ bucketSize
      · have hname : ∀ other ∈ current, other.1.name ≠ chunk.1.name := by
          intro other hother heq
          have hsize := (List.pairwise_append.mp hfull).2.2 other hother chunk (by simp) heq
          obtain ⟨before, after, rfl⟩ := List.append_of_mem hother
          have hpos := hchunk.pos
          simp only [total_append, total_cons] at hfits
          omega
        obtain ⟨hstep, hnext⟩ := sendStep_of_fits hfilling hchunk hfits hname
        obtain ⟨final, last, broadcast, runs, hrun, hfinal⟩ :=
          ih hnext hrest (by simpa using hfull)
        refine ⟨final, last, broadcast, runs, by rw [hstep]; exact hrun, ?_⟩
        rwa [← fill_cons_of_fits (.inr hfits)] at hfinal
      · have hover := Nat.not_le.mp hfits
        have hcurrent : current ≠ [] := by
          rintro rfl
          exact hfits (by simpa using hchunk.le)
        obtain ⟨hstep, hnext⟩ :=
          sendStep_of_fits hfilling.flush hchunk (by simpa using hchunk.le) (by simp)
        obtain ⟨final, last, broadcast, runs, hrun, hfinal, hdelivers, hlast, hfill⟩ :=
          ih hnext hrest (List.pairwise_append.mp hfull).2.1
        refine ⟨final, last, state.message false :: broadcast, current :: runs, ?_, ?_,
          .cons (hfilling.delivers false) hdelivers, hlast, ?_⟩
        · rw [sendStep_of_full hfilling hchunk hover, hstep]
          exact hrun
        · rw [hfinal]
          simp [SendState.flush, SendState.put]
        · rw [fill_cons_of_full hcurrent hover, List.cons_append, ← hfill, List.nil_append]

end Send

end OneShotOPD.WeightSync
