import OneShotOPD.WeightSync.BucketContents
import Mathlib.Logic.Relation

/-!
# Sender and receiver of the bucketed transfer

The two processes share the bucket and take turns over a request socket.  The sender
writes weights, sends the metadata and blocks until it is answered; the receiver uses the
weights of the bucket and answers afterwards.  The model interleaves the operations of both
sides, so that what happens to the bucket between a request and its answer can be stated.
-/

namespace OneShotOPD.WeightSync

open Checks FirstFit

/-! ## The sender as a list of operations -/

/-- What the sender does to the bucket and the socket. -/
inductive Operation where
  | write (weight : Weight) (offset : ℕ)
  | send (bucketMeta : Dict String TensorMetadata) (isLast : Bool)
  | recv
  /-- The assertion that fails with shared memory. -/
  | tooLarge (weight : Weight)

def largeMetadata (weight : Weight) : Dict String TensorMetadata :=
  Dict.empty.insert weight.name
    { name := weight.name
      shape := weight.shape
      dtype := weight.dtype
      offset := 0
      handle := some weight }

/-- The weight does not fit behind what the bucket holds, and the bucket holds something. -/
def NeedsRoom (bucketSize offset : ℕ) (bucketMeta : Dict String TensorMetadata)
    (weight : Weight) : Prop :=
  bucketSize < offset + weight.nbytes ∧ 0 < bucketMeta.entries.length

instance (bucketSize offset : ℕ) (bucketMeta : Dict String TensorMetadata) (weight : Weight) :
    Decidable (NeedsRoom bucketSize offset bucketMeta weight) :=
  inferInstanceAs (Decidable (_ ∧ _))

/-- The operations of `async_send_weights` from some round of its loop on, with the offset
and the metadata at that point. -/
def operations (bucketSize : ℕ) (useShm : Bool) :
    ℕ → Dict String TensorMetadata → List Weight → List Operation
  | _, bucketMeta, [] => [.send bucketMeta true, .recv]
  | offset, bucketMeta, weight :: weights =>
      let closing := if NeedsRoom bucketSize offset bucketMeta weight then
        [.send bucketMeta false, .recv] else []
      let room := if NeedsRoom bucketSize offset bucketMeta weight then (0, .empty)
        else (offset, bucketMeta)
      closing ++
        if bucketSize < room.1 + weight.nbytes then
          if useShm then [.tooLarge weight]
          else .send (largeMetadata weight) false :: .recv ::
            operations bucketSize useShm room.1 room.2 weights
        else .write weight room.1 ::
          operations bucketSize useShm (room.1 + weight.nbytes)
            (room.2.insert weight.name (metadataAt (weight, room.1))) weights

/-! ## Both processes -/

structure Request where
  bucketMeta : Dict String TensorMetadata
  isLast : Bool

inductive ReceiverState where
  | waiting
  | holding (request : Request)
  | used (isLast : Bool)
  | stopped

structure System where
  /-- What the sender has still to do. -/
  operations : List Operation
  buffer : List UInt8
  request : Option Request
  reply : Bool
  receiver : ReceiverState
  /-- The calls of `on_bucket_received`. -/
  received : List (List Weight × Bool)

/-- One operation of one of the two processes. -/
inductive Step : System → System → Prop
  | write {system : System} {weight view : Weight} {offset : ℕ} {rest : List Operation}
      (hnext : system.operations = .write weight offset :: rest)
      (hview : (sliceOf system.buffer offset weight.nbytes).viewAs weight.name weight.shape
        weight.dtype = .ok view) :
      Step system { system with
        operations := rest
        buffer := writeAt system.buffer offset weight.data }
  | send {system : System} {bucketMeta : Dict String TensorMetadata} {isLast : Bool}
      {rest : List Operation} (hnext : system.operations = .send bucketMeta isLast :: rest) :
      Step system { system with operations := rest, request := some ⟨bucketMeta, isLast⟩ }
  | recv {system : System} {rest : List Operation} (hnext : system.operations = .recv :: rest)
      (hreply : system.reply = true) :
      Step system { system with operations := rest, reply := false }
  | receive {system : System} {request : Request} (hreceiver : system.receiver = .waiting)
      (hrequest : system.request = some request) :
      Step system { system with request := none, receiver := .holding request }
  | use {system : System} {request : Request} {weights : List Weight}
      (hreceiver : system.receiver = .holding request)
      (hweights : receiveBucket system.buffer request.bucketMeta = .ok weights) :
      Step system { system with
        receiver := .used request.isLast
        received := system.received ++ [(weights, request.isLast)] }
  | acknowledge {system : System} {isLast : Bool}
      (hreceiver : system.receiver = .used isLast) :
      Step system { system with
        reply := true
        receiver := if isLast then .stopped else .waiting }

def initial {bucketSize : ℕ} (buffer : SharedBuffer bucketSize) (useShm : Bool)
    (weights : List Weight) : System where
  operations := operations bucketSize useShm 0 .empty weights
  buffer := buffer.bytes
  request := none
  reply := false
  receiver := .waiting
  received := []

abbrev Reachable {bucketSize : ℕ} (buffer : SharedBuffer bucketSize) (useShm : Bool)
    (weights : List Weight) : System → Prop :=
  Relation.ReflTransGen Step (initial buffer useShm weights)

/-- Both processes are through. -/
def System.Done (system : System) : Prop :=
  system.operations = [] ∧ system.receiver = .stopped

/-- A request is under way, or the receiver has not answered it. -/
def System.Unacknowledged (system : System) : Prop :=
  system.request.isSome ∨ (∃ request, system.receiver = .holding request) ∨
    ∃ isLast, system.receiver = .used isLast

/-- The ranges of the weights that a message places in the bucket are inside of it and
apart from each other. -/
structure RangesApart (bucketSize : ℕ) (bucketMeta : Dict String TensorMetadata) : Prop where
  inside : ∀ entry ∈ bucketMeta.entries, entry.2.handle = none →
    entry.2.offset + entry.2.dtype.itemsize * entry.2.shape.prod ≤ bucketSize
  apart : ∀ first ∈ bucketMeta.entries, ∀ second ∈ bucketMeta.entries,
    first.2.handle = none → second.2.handle = none → first.1 ≠ second.1 →
      first.2.offset + first.2.dtype.itemsize * first.2.shape.prod ≤ second.2.offset ∨
        second.2.offset + second.2.dtype.itemsize * second.2.shape.prod ≤ first.2.offset

/-! ## Taking turns -/

/-- Between two requests the sender only writes, and it waits for an answer directly after
each request.  The only request that is marked is the final one. -/
inductive Turns (bucketSize : ℕ) : List Operation → Prop
  | last {bucketMeta : Dict String TensorMetadata}
      (hranges : RangesApart bucketSize bucketMeta) :
      Turns bucketSize [.send bucketMeta true, .recv]
  | more {bucketMeta : Dict String TensorMetadata} {rest : List Operation}
      (hranges : RangesApart bucketSize bucketMeta) (hrest : Turns bucketSize rest) :
      Turns bucketSize (.send bucketMeta false :: .recv :: rest)
  | write {weight : Weight} {offset : ℕ} {rest : List Operation}
      (hrest : Turns bucketSize rest) : Turns bucketSize (.write weight offset :: rest)
  | tooLarge (weight : Weight) : Turns bucketSize [.tooLarge weight]

/-- What the sender does after the answer to a request. -/
def After (bucketSize : ℕ) (isLast : Bool) (rest : List Operation) : Prop :=
  if isLast then rest = [] else Turns bucketSize rest

/-- Where the two processes stand. -/
inductive Phase (bucketSize : ℕ) (system : System) : Prop
  | sending (hoperations : Turns bucketSize system.operations)
      (hreceiver : system.receiver = .waiting) (hrequest : system.request = none)
      (hreply : system.reply = false)
  | requested {request : Request} {rest : List Operation}
      (hoperations : system.operations = .recv :: rest)
      (hrest : After bucketSize request.isLast rest)
      (hranges : RangesApart bucketSize request.bucketMeta)
      (hreceiver : system.receiver = .waiting) (hrequest : system.request = some request)
      (hreply : system.reply = false)
  | holding {request : Request} {rest : List Operation}
      (hoperations : system.operations = .recv :: rest)
      (hrest : After bucketSize request.isLast rest)
      (hranges : RangesApart bucketSize request.bucketMeta)
      (hreceiver : system.receiver = .holding request) (hrequest : system.request = none)
      (hreply : system.reply = false)
  | used {isLast : Bool} {rest : List Operation}
      (hoperations : system.operations = .recv :: rest) (hrest : After bucketSize isLast rest)
      (hreceiver : system.receiver = .used isLast) (hrequest : system.request = none)
      (hreply : system.reply = false)
  | replied {isLast : Bool} {rest : List Operation}
      (hoperations : system.operations = .recv :: rest) (hrest : After bucketSize isLast rest)
      (hreceiver : system.receiver = if isLast then .stopped else .waiting)
      (hrequest : system.request = none) (hreply : system.reply = true)
  | done (hoperations : system.operations = []) (hreceiver : system.receiver = .stopped)
      (hrequest : system.request = none) (hreply : system.reply = false)

section Invariant

variable {bucketSize : ℕ} {system next : System}

theorem phase_step (hphase : Phase bucketSize system) (hstep : Step system next) :
    Phase bucketSize next := by
  cases hstep with
  | write hnext hview =>
      cases hphase with
      | sending hoperations hreceiver hrequest hreply =>
          rw [hnext] at hoperations
          cases hoperations with
          | write hrest => exact .sending hrest hreceiver hrequest hreply
      | requested hoperations => cases hnext.symm.trans hoperations
      | holding hoperations => cases hnext.symm.trans hoperations
      | used hoperations => cases hnext.symm.trans hoperations
      | replied hoperations => cases hnext.symm.trans hoperations
      | done hoperations => cases hnext.symm.trans hoperations
  | send hnext =>
      cases hphase with
      | sending hoperations hreceiver hrequest hreply =>
          rw [hnext] at hoperations
          cases hoperations with
          | last hranges =>
              exact @Phase.requested _ _ ⟨_, true⟩ _ rfl rfl hranges hreceiver rfl hreply
          | more hranges hrest =>
              exact @Phase.requested _ _ ⟨_, false⟩ _ rfl hrest hranges hreceiver rfl hreply
      | requested hoperations => cases hnext.symm.trans hoperations
      | holding hoperations => cases hnext.symm.trans hoperations
      | used hoperations => cases hnext.symm.trans hoperations
      | replied hoperations => cases hnext.symm.trans hoperations
      | done hoperations => cases hnext.symm.trans hoperations
  | recv hnext hanswered =>
      cases hphase with
      | sending _ _ _ hreply => cases hanswered.symm.trans hreply
      | requested _ _ _ _ _ hreply => cases hanswered.symm.trans hreply
      | holding _ _ _ _ _ hreply => cases hanswered.symm.trans hreply
      | used _ _ _ _ hreply => cases hanswered.symm.trans hreply
      | @replied isLast _ hoperations hrest hreceiver hrequest =>
          obtain ⟨_, rfl⟩ := List.cons.inj (hnext.symm.trans hoperations)
          cases isLast with
          | true => exact .done hrest hreceiver hrequest rfl
          | false => exact .sending hrest hreceiver hrequest rfl
      | done _ _ _ hreply => cases hanswered.symm.trans hreply
  | receive hwaiting hsome =>
      cases hphase with
      | sending _ _ hrequest => cases hsome.symm.trans hrequest
      | requested hoperations hrest hranges _ hrequest hreply =>
          obtain rfl := Option.some.inj (hsome.symm.trans hrequest)
          exact .holding hoperations hrest hranges rfl rfl hreply
      | holding _ _ _ _ hrequest => cases hsome.symm.trans hrequest
      | used _ _ _ hrequest => cases hsome.symm.trans hrequest
      | replied _ _ _ hrequest => cases hsome.symm.trans hrequest
      | done _ _ hrequest => cases hsome.symm.trans hrequest
  | use hheld hweights =>
      cases hphase with
      | sending _ hreceiver => cases hheld.symm.trans hreceiver
      | requested _ _ _ hreceiver => cases hheld.symm.trans hreceiver
      | holding hoperations hrest _ hreceiver hrequest hreply =>
          cases hheld.symm.trans hreceiver
          exact .used hoperations hrest rfl hrequest hreply
      | used _ _ hreceiver => cases hheld.symm.trans hreceiver
      | @replied isLast _ _ _ hreceiver =>
          cases isLast <;> cases hheld.symm.trans hreceiver
      | done _ hreceiver => cases hheld.symm.trans hreceiver
  | acknowledge hused =>
      cases hphase with
      | sending _ hreceiver => cases hused.symm.trans hreceiver
      | requested _ _ _ hreceiver => cases hused.symm.trans hreceiver
      | holding _ _ _ hreceiver => cases hused.symm.trans hreceiver
      | used hoperations hrest hreceiver hrequest =>
          cases hused.symm.trans hreceiver
          exact .replied hoperations hrest rfl hrequest rfl
      | @replied isLast _ _ _ hreceiver =>
          cases isLast <;> cases hused.symm.trans hreceiver
      | done _ hreceiver => cases hused.symm.trans hreceiver

/-- While a request is not acknowledged the sender waits. -/
theorem next_recv_of_unacknowledged (hphase : Phase bucketSize system)
    (hopen : system.Unacknowledged) : ∃ rest, system.operations = .recv :: rest := by
  cases hphase with
  | requested hoperations => exact ⟨_, hoperations⟩
  | holding hoperations => exact ⟨_, hoperations⟩
  | used hoperations => exact ⟨_, hoperations⟩
  | replied hoperations => exact ⟨_, hoperations⟩
  | sending _ hreceiver hrequest =>
      rcases hopen with hsome | ⟨_, hheld⟩ | ⟨_, hused⟩
      · rw [hrequest] at hsome
        cases hsome
      · cases hheld.symm.trans hreceiver
      · cases hused.symm.trans hreceiver
  | done _ hreceiver hrequest =>
      rcases hopen with hsome | ⟨_, hheld⟩ | ⟨_, hused⟩
      · rw [hrequest] at hsome
        cases hsome
      · cases hheld.symm.trans hreceiver
      · cases hused.symm.trans hreceiver

/-- The bucket stays as it is until the request is acknowledged. -/
theorem buffer_eq_of_unacknowledged (hphase : Phase bucketSize system)
    (hopen : system.Unacknowledged) (hstep : Step system next) :
    next.buffer = system.buffer := by
  obtain ⟨rest, hrecv⟩ := next_recv_of_unacknowledged hphase hopen
  cases hstep with
  | write hnext => cases hnext.symm.trans hrecv
  | send => rfl
  | recv => rfl
  | receive => rfl
  | use => rfl
  | acknowledge => rfl

end Invariant

/-! ## The ranges in a bucket -/

/-- What the sender has placed in the bucket lies below its offset. -/
structure Placed (bucketSize offset : ℕ) (bucketMeta : Dict String TensorMetadata) : Prop where
  ranges : RangesApart bucketSize bucketMeta
  below : ∀ entry ∈ bucketMeta.entries,
    entry.2.offset + entry.2.dtype.itemsize * entry.2.shape.prod ≤ offset
  le : offset ≤ bucketSize

theorem placed_empty (bucketSize : ℕ) : Placed bucketSize 0 .empty :=
  ⟨⟨by simp [Dict.empty], by simp [Dict.empty]⟩, by simp [Dict.empty], Nat.zero_le _⟩

theorem itemsize_mul_prod (weight : Weight) :
    weight.dtype.itemsize * weight.shape.prod = weight.nbytes := by
  rw [Nat.mul_comm, ← weight.data_length]
  rfl

theorem Placed.insert {bucketSize offset : ℕ} {bucketMeta : Dict String TensorMetadata}
    (hplaced : Placed bucketSize offset bucketMeta) {weight : Weight}
    (hfits : offset + weight.nbytes ≤ bucketSize) :
    Placed bucketSize (offset + weight.nbytes)
      (bucketMeta.insert weight.name (metadataAt (weight, offset))) := by
  have hend : (metadataAt (weight, offset)).offset +
      (metadataAt (weight, offset)).dtype.itemsize * (metadataAt (weight, offset)).shape.prod =
        offset + weight.nbytes := congrArg (offset + ·) (itemsize_mul_prod weight)
  have hbelow : ∀ entry ∈ (bucketMeta.insert weight.name (metadataAt (weight, offset))).entries,
      entry.2.offset + entry.2.dtype.itemsize * entry.2.shape.prod ≤ offset + weight.nbytes := by
    intro entry hentry
    rcases Dict.mem_entries_insert hentry with rfl | hold
    · exact hend.le
    · exact (hplaced.below entry hold).trans (Nat.le_add_right _ _)
  refine ⟨⟨fun entry hentry _ => (hbelow entry hentry).trans hfits, ?_⟩, hbelow, hfits⟩
  intro first hfirst second hsecond hplain hplain' hne
  rcases Dict.mem_entries_insert hfirst with rfl | hold
  · rcases Dict.mem_entries_insert hsecond with rfl | hold'
    · exact absurd rfl hne
    · exact .inr (hplaced.below second hold')
  · rcases Dict.mem_entries_insert hsecond with rfl | hold'
    · exact .inl (hplaced.below first hold)
    · exact hplaced.ranges.apart first hold second hold' hplain hplain' hne

theorem rangesApart_largeMetadata (bucketSize : ℕ) (weight : Weight) :
    RangesApart bucketSize (largeMetadata weight) := by
  have hhandle : ∀ entry ∈ (largeMetadata weight).entries, entry.2.handle ≠ none := by
    intro entry hentry
    obtain rfl := List.mem_singleton.mp hentry
    exact Option.some_ne_none _
  exact ⟨fun entry hentry hnone => absurd hnone (hhandle entry hentry),
    fun first hfirst _ _ hnone => absurd hnone (hhandle first hfirst)⟩

/-- After the first branch of a round, what the bucket holds still lies below the
offset. -/
theorem placed_room {bucketSize offset : ℕ} {bucketMeta : Dict String TensorMetadata}
    (hplaced : Placed bucketSize offset bucketMeta) (weight : Weight) :
    Placed bucketSize
      (if NeedsRoom bucketSize offset bucketMeta weight then (0, .empty)
        else (offset, bucketMeta)).1
      (if NeedsRoom bucketSize offset bucketMeta weight then (0, .empty)
        else (offset, bucketMeta)).2 := by
  split
  next => exact placed_empty bucketSize
  next => exact hplaced

theorem turns_operations {bucketSize : ℕ} {useShm : Bool} {weights : List Weight} {offset : ℕ}
    {bucketMeta : Dict String TensorMetadata} (hplaced : Placed bucketSize offset bucketMeta) :
    Turns bucketSize (operations bucketSize useShm offset bucketMeta weights) := by
  induction weights generalizing offset bucketMeta with
  | nil => exact .last hplaced.ranges
  | cons weight weights ih =>
      have hroom := placed_room hplaced weight
      rw [operations]
      generalize (if NeedsRoom bucketSize offset bucketMeta weight then (0, Dict.empty)
        else (offset, bucketMeta)) = room at hroom
      have hrest : Turns bucketSize
          (if bucketSize < room.1 + weight.nbytes then
            if useShm then [.tooLarge weight]
            else .send (largeMetadata weight) false :: .recv ::
              operations bucketSize useShm room.1 room.2 weights
          else .write weight room.1 ::
            operations bucketSize useShm (room.1 + weight.nbytes)
              (room.2.insert weight.name (metadataAt (weight, room.1))) weights) := by
        split
        next =>
          split
          next => exact .tooLarge weight
          next => exact .more (rangesApart_largeMetadata bucketSize weight) (ih hroom)
        next hfits => exact .write (ih (hroom.insert (Nat.not_lt.mp hfits)))
      split
      next => exact .more hplaced.ranges hrest
      next => exact hrest

/-! ## What the operations come to -/

/-- The operations of the sender, each request answered at once. -/
def runOperations : List Operation → List UInt8 → List (List Weight × Bool) →
    Except TransferError (List (List Weight × Bool))
  | [], _, received => .ok received
  | .write weight offset :: rest, buffer, received => do
      let _ ← (sliceOf buffer offset weight.nbytes).viewAs weight.name weight.shape weight.dtype
      runOperations rest (writeAt buffer offset weight.data) received
  | .send bucketMeta isLast :: rest, buffer, received => do
      let weights ← receiveBucket buffer bucketMeta
      runOperations rest buffer (received ++ [(weights, isLast)])
  | .recv :: rest, buffer, received => runOperations rest buffer received
  | .tooLarge weight :: _, _, _ => .error (.tooLarge weight.name weight.shape weight.dtype)

/-- What a system comes to from here on. -/
def System.outcome (system : System) : Except TransferError (List (List Weight × Bool)) :=
  match system.receiver, system.request with
  | .holding request, _ =>
      runOperations (.send request.bucketMeta request.isLast :: system.operations) system.buffer
        system.received
  | _, some request =>
      runOperations (.send request.bucketMeta request.isLast :: system.operations) system.buffer
        system.received
  | _, none => runOperations system.operations system.buffer system.received

section Outcome

variable {bucketSize : ℕ} {system next : System}

theorem outcome_step (hphase : Phase bucketSize system) (hstep : Step system next) :
    next.outcome = system.outcome := by
  cases hstep with
  | write hnext hview =>
      cases hphase with
      | sending hoperations hreceiver hrequest =>
          simp only [System.outcome, hreceiver, hrequest, hnext, runOperations, hview]
          rfl
      | requested hoperations => cases hnext.symm.trans hoperations
      | holding hoperations => cases hnext.symm.trans hoperations
      | used hoperations => cases hnext.symm.trans hoperations
      | replied hoperations => cases hnext.symm.trans hoperations
      | done hoperations => cases hnext.symm.trans hoperations
  | send hnext =>
      cases hphase with
      | sending hoperations hreceiver hrequest =>
          simp only [System.outcome, hreceiver, hrequest, hnext]
      | requested hoperations => cases hnext.symm.trans hoperations
      | holding hoperations => cases hnext.symm.trans hoperations
      | used hoperations => cases hnext.symm.trans hoperations
      | replied hoperations => cases hnext.symm.trans hoperations
      | done hoperations => cases hnext.symm.trans hoperations
  | recv hnext hanswered =>
      cases hphase with
      | sending _ _ _ hreply => cases hanswered.symm.trans hreply
      | requested _ _ _ _ _ hreply => cases hanswered.symm.trans hreply
      | holding _ _ _ _ _ hreply => cases hanswered.symm.trans hreply
      | used _ _ _ _ hreply => cases hanswered.symm.trans hreply
      | @replied isLast _ _ _ hreceiver hrequest =>
          cases isLast <;> simp [System.outcome, hreceiver, hrequest, hnext, runOperations]
      | done _ _ _ hreply => cases hanswered.symm.trans hreply
  | receive hwaiting hsome => simp only [System.outcome, hwaiting, hsome]
  | use hheld hweights =>
      cases hphase with
      | sending _ hreceiver => cases hheld.symm.trans hreceiver
      | requested _ _ _ hreceiver => cases hheld.symm.trans hreceiver
      | holding _ _ _ hreceiver hrequest =>
          simp only [System.outcome, hheld, hrequest, runOperations, hweights]
          rfl
      | used _ _ hreceiver => cases hheld.symm.trans hreceiver
      | @replied isLast _ _ _ hreceiver =>
          cases isLast <;> cases hheld.symm.trans hreceiver
      | done _ hreceiver => cases hheld.symm.trans hreceiver
  | @acknowledge isLast hused =>
      cases hphase with
      | sending _ hreceiver => cases hused.symm.trans hreceiver
      | requested _ _ _ hreceiver => cases hused.symm.trans hreceiver
      | holding _ _ _ hreceiver => cases hused.symm.trans hreceiver
      | used _ _ _ hrequest => cases isLast <;> simp [System.outcome, hused, hrequest]
      | @replied isLast _ _ _ hreceiver =>
          cases isLast <;> cases hused.symm.trans hreceiver
      | done _ hreceiver => cases hused.symm.trans hreceiver

/-- A system that comes to something is through or goes on. -/
theorem done_or_step_of_outcome (hphase : Phase bucketSize system)
    {received : List (List Weight × Bool)} (houtcome : system.outcome = .ok received) :
    system.Done ∨ ∃ next, Step system next := by
  cases hphase with
  | sending hoperations hreceiver hrequest =>
      right
      simp only [System.outcome, hreceiver, hrequest] at houtcome
      generalize hlist : system.operations = remaining at hoperations houtcome
      cases hoperations with
      | last => exact ⟨_, .send hlist⟩
      | more => exact ⟨_, .send hlist⟩
      | write =>
          obtain ⟨view, hview, _⟩ := bind_eq_ok.mp houtcome
          exact ⟨_, .write hlist hview⟩
      | tooLarge => cases houtcome
  | requested _ _ _ hreceiver hrequest => exact .inr ⟨_, .receive hreceiver hrequest⟩
  | holding _ _ _ hreceiver =>
      simp only [System.outcome, hreceiver, runOperations] at houtcome
      obtain ⟨weights, hweights, _⟩ := bind_eq_ok.mp houtcome
      exact .inr ⟨_, .use hreceiver hweights⟩
  | used _ _ hreceiver => exact .inr ⟨_, .acknowledge hreceiver⟩
  | replied hoperations _ _ _ hreply => exact .inr ⟨_, .recv hoperations hreply⟩
  | done hoperations hreceiver => exact .inl ⟨hoperations, hreceiver⟩

theorem outcome_of_done (hphase : Phase bucketSize system) (hdone : system.Done) :
    system.outcome = .ok system.received := by
  obtain ⟨hend, hstopped⟩ := hdone
  cases hphase with
  | sending _ hreceiver => cases hstopped.symm.trans hreceiver
  | requested _ _ _ hreceiver => cases hstopped.symm.trans hreceiver
  | holding _ _ _ hreceiver => cases hstopped.symm.trans hreceiver
  | used _ _ hreceiver => cases hstopped.symm.trans hreceiver
  | replied hoperations => cases hend.symm.trans hoperations
  | done _ _ hrequest => simp only [System.outcome, hstopped, hrequest, hend, runOperations]

/-- How much is left to do. -/
def System.remaining (system : System) : ℕ :=
  5 * system.operations.length + (if system.request.isSome then 4 else 0) +
    match system.receiver with
    | .holding _ => 3
    | .used _ => 2
    | _ => 0

theorem remaining_step (hphase : Phase bucketSize system) (hstep : Step system next) :
    next.remaining < system.remaining := by
  cases hstep with
  | write hnext => simp only [System.remaining, hnext, List.length_cons]; omega
  | send hnext =>
      cases hphase with
      | sending _ _ hrequest =>
          simp only [System.remaining, hnext, hrequest, List.length_cons, Option.isSome_some,
            Option.isSome_none, if_true, Bool.false_eq_true, if_false]
          omega
      | requested hoperations => cases hnext.symm.trans hoperations
      | holding hoperations => cases hnext.symm.trans hoperations
      | used hoperations => cases hnext.symm.trans hoperations
      | replied hoperations => cases hnext.symm.trans hoperations
      | done hoperations => cases hnext.symm.trans hoperations
  | recv hnext => simp only [System.remaining, hnext, List.length_cons]; omega
  | receive hwaiting hsome =>
      simp only [System.remaining, hwaiting, hsome, Option.isSome_some, Option.isSome_none,
        if_true, Bool.false_eq_true, if_false]
      omega
  | use hheld => simp only [System.remaining, hheld]; omega
  | @acknowledge isLast hused =>
      cases isLast <;> simp only [System.remaining, hused, Bool.false_eq_true, if_false,
        if_true] <;> omega

end Outcome

/-- Answered at once, the operations of the sender are a transfer. -/
theorem runOperations_operations (bucketSize : ℕ) (useShm : Bool) (weights : List Weight)
    (state : BucketState) :
    runOperations (operations bucketSize useShm state.offset state.bucketMeta weights)
        state.buffer state.received =
      (do
        let state ← weights.foldlM (sendWeight bucketSize useShm) state
        let state ← sendMessage state state.bucketMeta true
        return state.received) := by
  induction weights generalizing state with
  | nil =>
      rw [operations, runOperations, List.foldlM_nil]
      change _ = (sendMessage state state.bucketMeta true >>= _)
      rw [sendMessage]
      cases receiveBucket state.buffer state.bucketMeta <;> rfl
  | cons weight weights ih =>
      have hplace : ∀ state : BucketState,
          runOperations
            (if bucketSize < state.offset + weight.nbytes then
              if useShm then [.tooLarge weight]
              else .send (largeMetadata weight) false :: .recv ::
                operations bucketSize useShm state.offset state.bucketMeta weights
            else .write weight state.offset ::
              operations bucketSize useShm (state.offset + weight.nbytes)
                (state.bucketMeta.insert weight.name (metadataAt (weight, state.offset)))
                weights) state.buffer state.received =
          ((if bucketSize < state.offset + weight.nbytes then do
              raiseIf (useShm = true) (.tooLarge weight.name weight.shape weight.dtype)
              directSendLargeWeight state weight
            else putWeight state weight) >>= fun state => do
              let state ← weights.foldlM (sendWeight bucketSize useShm) state
              let state ← sendMessage state state.bucketMeta true
              return state.received) := by
        intro state
        split
        next =>
          cases useShm with
          | true => rfl
          | false => exact ih { state with received := state.received ++ [([weight], false)] }
        next =>
          rw [runOperations, putWeight]
          cases (sliceOf state.buffer state.offset weight.nbytes).viewAs weight.name weight.shape
              weight.dtype with
          | error error => rfl
          | ok view => exact ih (state.write weight)
      rw [operations, List.foldlM_cons, bind_assoc]
      by_cases hneeds : NeedsRoom bucketSize state.offset state.bucketMeta weight
      · simp only [if_pos hneeds]
        rw [List.cons_append, List.cons_append, List.nil_append, runOperations]
        cases hbucket : receiveBucket state.buffer state.bucketMeta with
        | error error =>
            have hmake : makeRoom bucketSize state weight = .error error := by
              rw [makeRoom, sendMessage, hbucket]
              exact if_pos hneeds
            rw [sendWeight, hmake]
            rfl
        | ok received =>
            have hmake : makeRoom bucketSize state weight = .ok { state with
                bucketMeta := .empty
                offset := 0
                received := state.received ++ [(received, false)] } := by
              rw [makeRoom, sendMessage, hbucket]
              exact if_pos hneeds
            rw [sendWeight_of_makeRoom hmake]
            exact hplace ⟨state.buffer, .empty, 0, state.received ++ [(received, false)]⟩
      · simp only [if_neg hneeds]
        have hmake : makeRoom bucketSize state weight = .ok state := if_neg hneeds
        rw [List.nil_append, sendWeight_of_makeRoom hmake]
        exact hplace state

/-! ## The protocol -/

section Protocol

variable {bucketSize : ℕ} {buffer : SharedBuffer bucketSize} {useShm : Bool}
  {weights : List Weight} {system : System}

theorem phase_of_reachable (hreach : Reachable buffer useShm weights system) :
    Phase bucketSize system := by
  induction hreach with
  | refl => exact .sending (turns_operations (placed_empty bucketSize)) rfl rfl rfl
  | tail _ hstep ih => exact phase_step ih hstep

theorem outcome_of_reachable (hreach : Reachable buffer useShm weights system) :
    system.outcome = bucketedTransfer buffer useShm weights := by
  induction hreach with
  | refl =>
      exact runOperations_operations bucketSize useShm weights ⟨buffer.bytes, .empty, 0, []⟩
  | tail hreach hstep ih => rw [outcome_step (phase_of_reachable hreach) hstep, ih]

/-- From every reachable state the system can be run until nothing more happens. -/
theorem exists_final (hreach : Reachable buffer useShm weights system) :
    ∃ final, Reachable buffer useShm weights final ∧ ∀ next, ¬ Step final next := by
  induction hremaining : system.remaining using Nat.strong_induction_on generalizing system with
  | _ count ih =>
      by_cases hstep : ∃ next, Step system next
      · obtain ⟨next, hstep⟩ := hstep
        have hless := remaining_step (phase_of_reachable hreach) hstep
        exact ih next.remaining (hremaining ▸ hless) (hreach.tail hstep) rfl
      · exact ⟨system, hreach, not_exists.mp hstep⟩

/-- What the transfer promises, over all interleavings of the two processes. -/
structure ProtocolHolds (buffer : SharedBuffer bucketSize) (useShm : Bool)
    (weights : List Weight) : Prop where
  /-- Neither process raises or waits for ever. -/
  progress : ∀ system, Reachable buffer useShm weights system →
    system.Done ∨ ∃ next, Step system next
  terminates : ∀ system next, Reachable buffer useShm weights system → Step system next →
    next.remaining < system.remaining
  /-- Every weight arrives once, in order, and the final message alone is marked. -/
  delivered : ∀ system, Reachable buffer useShm weights system → system.Done →
    system.received.flatMap Prod.fst = weights ∧
      ∃ front last, system.received = front ++ [(last, true)] ∧
        ∀ delivery ∈ front, delivery.2 = false
  ranges : ∀ system request, Reachable buffer useShm weights system →
    system.request = some request ∨ system.receiver = .holding request →
      RangesApart bucketSize request.bucketMeta
  /-- The bucket is not written before the receiver has acknowledged it. -/
  untouched : ∀ system next, Reachable buffer useShm weights system →
    system.Unacknowledged → Step system next → next.buffer = system.buffer

theorem ranges_of_phase {request : Request} (hphase : Phase bucketSize system)
    (hopen : system.request = some request ∨ system.receiver = .holding request) :
    RangesApart bucketSize request.bucketMeta := by
  cases hphase with
  | sending _ hreceiver hrequest =>
      rcases hopen with hsome | hheld
      · cases hsome.symm.trans hrequest
      · cases hheld.symm.trans hreceiver
  | requested _ _ hranges hreceiver hrequest =>
      rcases hopen with hsome | hheld
      · obtain rfl := Option.some.inj (hsome.symm.trans hrequest)
        exact hranges
      · cases hheld.symm.trans hreceiver
  | holding _ _ hranges hreceiver hrequest =>
      rcases hopen with hsome | hheld
      · cases hsome.symm.trans hrequest
      · cases hheld.symm.trans hreceiver
        exact hranges
  | used _ _ hreceiver hrequest =>
      rcases hopen with hsome | hheld
      · cases hsome.symm.trans hrequest
      · cases hheld.symm.trans hreceiver
  | @replied isLast _ _ _ hreceiver hrequest =>
      rcases hopen with hsome | hheld
      · cases hsome.symm.trans hrequest
      · cases isLast <;> cases hheld.symm.trans hreceiver
  | done _ hreceiver hrequest =>
      rcases hopen with hsome | hheld
      · cases hsome.symm.trans hrequest
      · cases hheld.symm.trans hreceiver

theorem transferable_of_protocolHolds (hholds : ProtocolHolds buffer useShm weights) :
    Transferable bucketSize useShm weights := by
  obtain ⟨final, hreach, hfinal⟩ := exists_final
    (Relation.ReflTransGen.refl : Reachable buffer useShm weights _)
  have hdone : final.Done := by
    rcases hholds.progress final hreach with hdone | ⟨next, hstep⟩
    · exact hdone
    · exact absurd hstep (hfinal next)
  have houtcome := outcome_of_done (phase_of_reachable hreach) hdone
  rw [outcome_of_reachable hreach] at houtcome
  exact (bucketedTransfer_delivers_iff buffer).mp
    ⟨final.received, houtcome, (hholds.delivered final hreach hdone).1⟩

/-- The protocol keeps its promises exactly when every weight starts in its bucket at a
multiple of its element size, no bucket has a name twice, and with shared memory no weight
is larger than the bucket. -/
theorem protocolHolds_iff_transferable (buffer : SharedBuffer bucketSize) (useShm : Bool)
    (weights : List Weight) :
    ProtocolHolds buffer useShm weights ↔ Transferable bucketSize useShm weights := by
  refine ⟨transferable_of_protocolHolds, fun htransferable => ?_⟩
  obtain ⟨closed, last, htransfer, _⟩ := bucketedTransfer_eq_ok buffer
    htransferable.shm_fits htransferable.aligned
  obtain ⟨received, hreceived, hweights⟩ :=
    (bucketedTransfer_delivers_iff buffer).mpr htransferable
  obtain rfl := Except.ok.inj (hreceived.symm.trans htransfer)
  refine ⟨fun system hreach => ?_, fun system next hreach => ?_, fun system hreach hdone => ?_,
    fun system request hreach => ?_, fun system next hreach => ?_⟩
  · exact done_or_step_of_outcome (phase_of_reachable hreach)
      ((outcome_of_reachable hreach).trans htransfer)
  · exact remaining_step (phase_of_reachable hreach)
  · have houtcome := outcome_of_done (phase_of_reachable hreach) hdone
    rw [outcome_of_reachable hreach, htransfer] at houtcome
    rw [← Except.ok.inj houtcome]
    refine ⟨hweights, deliveries closed, arriving last, rfl, fun delivery hdelivery => ?_⟩
    obtain ⟨run, _, rfl⟩ := List.mem_map.mp hdelivery
    rfl
  · exact ranges_of_phase (phase_of_reachable hreach)
  · exact buffer_eq_of_unacknowledged (phase_of_reachable hreach)

end Protocol

/-- A half precision scale in front of a full precision gate does not get through. -/
theorem halfScale_gate_not_protocolHolds :
    ¬ ProtocolHolds (sharedBuffer 1) false [halfScale, gate] := fun hholds =>
  absurd (transferable_of_protocolHolds hholds).aligned (by decide)

end OneShotOPD.WeightSync
