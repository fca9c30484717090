import OneShotOPD.WeightSync.BucketedTransfer
import Mathlib.Algebra.Order.BigOperators.Group.List
import Mathlib.Algebra.Order.Ring.Nat
import Mathlib.Data.List.TakeWhile

/-!
# What arrives from the buckets

A bucket holds its weights one behind the other, so that each is read back as it was
written.  The metadata of a bucket is a dictionary: of several weights of one name in a
bucket only the last can be found.
-/

namespace OneShotOPD.WeightSync

open Checks FirstFit

def metadataAt (placed : Weight × ℕ) : TensorMetadata where
  name := placed.1.name
  shape := placed.1.shape
  dtype := placed.1.dtype
  offset := placed.2
  handle := none

/-- The weights of a bucket by name, each with its place. -/
def placedOf (run : List Weight) : Dict String (Weight × ℕ) :=
  (starts Weight.nbytes 0 run).foldl (fun dict placed => dict.insert placed.1.name placed) .empty

/-- What the receiver finds in a bucket. -/
def arriving (run : List Weight) : List Weight :=
  (placedOf run).entries.map fun entry => entry.2.1

theorem placedOf_append_singleton (run : List Weight) (weight : Weight) :
    placedOf (run ++ [weight]) =
      (placedOf run).insert weight.name (weight, total Weight.nbytes run) := by
  rw [placedOf, starts_append, List.foldl_append, starts_cons, starts_nil, List.foldl_cons,
    List.foldl_nil, Nat.zero_add]
  rfl

theorem arriving_singleton (weight : Weight) : arriving [weight] = [weight] := rfl

theorem mem_placedOf {run : List Weight} {entry : String × Weight × ℕ}
    (hentry : entry ∈ (placedOf run).entries) :
    entry.1 = entry.2.1.name ∧ entry.2 ∈ starts Weight.nbytes 0 run := by
  induction run using List.reverseRecOn with
  | nil => cases hentry
  | append_singleton run weight ih =>
      rw [placedOf_append_singleton] at hentry
      rw [starts_append, List.mem_append]
      rcases Dict.mem_entries_insert hentry with rfl | hold
      · refine ⟨rfl, .inr ?_⟩
        rw [Nat.zero_add]
        exact List.mem_singleton.mpr rfl
      · exact ⟨(ih hold).1, .inl (ih hold).2⟩

theorem mem_keys_placedOf {run : List Weight} {name : String} :
    name ∈ (placedOf run).keys ↔ name ∈ run.map Weight.name := by
  induction run using List.reverseRecOn with
  | nil => simp [placedOf]
  | append_singleton run weight ih =>
      rw [placedOf_append_singleton, Dict.mem_keys_insert, ih, List.map_append, List.mem_append,
        List.map_singleton, List.mem_singleton]
      exact or_comm

/-- With distinct names all weights of a bucket arrive. -/
theorem arriving_of_nodup {run : List Weight} (hnames : (run.map Weight.name).Nodup) :
    arriving run = run := by
  induction run using List.reverseRecOn with
  | nil => rfl
  | append_singleton run weight ih =>
      rw [List.map_append, List.map_singleton, List.nodup_append] at hnames
      have hnew : weight.name ∉ (placedOf run).keys := by
        rw [mem_keys_placedOf]
        exact fun hmem => hnames.2.2 _ hmem _ List.mem_cons_self rfl
      rw [arriving, placedOf_append_singleton, Dict.entries_insert_of_not_mem _ _ hnew,
        List.map_append, ← arriving, ih hnames.1]
      rfl

theorem nodup_names_arriving (run : List Weight) :
    ((arriving run).map Weight.name).Nodup := by
  have hkeys : (arriving run).map Weight.name = (placedOf run).keys := by
    rw [arriving, List.map_map, Dict.keys]
    exact List.map_congr_left fun entry hentry => (mem_placedOf hentry).1.symm
  rw [hkeys]
  exact (placedOf run).keys_nodup

theorem length_arriving_le (run : List Weight) : (arriving run).length ≤ run.length := by
  induction run using List.reverseRecOn with
  | nil => exact le_rfl
  | append_singleton run weight ih =>
      have hlength : (arriving (run ++ [weight])).length ≤ (arriving run).length + 1 := by
        rw [arriving, arriving, placedOf_append_singleton, List.length_map, List.length_map]
        by_cases hkey : weight.name ∈ (placedOf run).keys
        · rw [Dict.entries_insert_of_mem _ _ hkey, List.length_map]
          exact Nat.le_succ _
        · rw [Dict.entries_insert_of_not_mem _ _ hkey, List.length_append]
          exact le_rfl
      rw [List.length_append, List.length_singleton]
      omega

/-- All weights of some buckets arrive exactly when no bucket has a name twice. -/
theorem flatMap_arriving_eq_iff {runs : List (List Weight)} :
    runs.flatMap arriving = runs.flatten ↔ ∀ run ∈ runs, (run.map Weight.name).Nodup := by
  constructor
  · intro hall run hrun
    have hlengths : ∀ run ∈ runs, (arriving run).length = run.length := by
      have hsum := congrArg List.length hall
      rw [List.length_flatMap, List.length_flatten] at hsum
      clear hrun hall
      induction runs with
      | nil => simp
      | cons first runs ih =>
          rw [List.map_cons, List.map_cons, List.sum_cons, List.sum_cons] at hsum
          have hfirst := length_arriving_le first
          have hrest : (runs.map fun run => (arriving run).length).sum ≤
              (runs.map List.length).sum :=
            List.sum_le_sum fun run _ => length_arriving_le run
          rw [List.forall_mem_cons]
          exact ⟨by omega, ih (by omega)⟩
    have hsame : arriving run = run := by
      obtain ⟨before, after, rfl⟩ := List.append_of_mem hrun
      rw [List.flatMap_append, List.flatMap_cons, List.flatten_append, List.flatten_cons] at hall
      have hbefore : (before.flatMap arriving).length = before.flatten.length := by
        rw [List.length_flatMap, List.length_flatten]
        exact congrArg List.sum (List.map_congr_left fun other hother =>
          hlengths other (List.mem_append_left _ hother))
      exact (List.append_inj (List.append_inj hall hbefore).2 (hlengths run hrun)).1
    rw [← hsame]
    exact nodup_names_arriving run
  · intro hnames
    rw [List.flatMap_def, List.map_congr_left fun run hrun => arriving_of_nodup (hnames run hrun),
      List.map_id']

/-! ## The bucket that is being filled -/

/-- The bucket holds the weights, one behind the other. -/
structure Contents (bucketSize : ℕ) (state : BucketState) (current : List Weight) : Prop where
  length : state.buffer.length = bucketSize
  offset : state.offset = total Weight.nbytes current
  le : state.offset ≤ bucketSize
  written : state.buffer.take state.offset = current.flatMap Weight.data
  bucketMeta : state.bucketMeta = (placedOf current).map metadataAt

theorem length_flatMap_data (run : List Weight) :
    (run.flatMap Weight.data).length = total Weight.nbytes run := by
  rw [List.length_flatMap, total]
  rfl

theorem entries_length_placedOf {run : List Weight} :
    0 < ((placedOf run).map metadataAt).entries.length ↔ run ≠ [] := by
  rw [Dict.entries_map, List.length_map, List.length_pos_iff_exists_mem]
  constructor
  · rintro ⟨entry, hentry⟩ rfl
    cases hentry
  · intro hrun
    obtain ⟨weight, hweight⟩ := List.exists_mem_of_ne_nil run hrun
    have hkey : weight.name ∈ (placedOf run).keys :=
      mem_keys_placedOf.mpr (List.mem_map_of_mem hweight)
    obtain ⟨entry, hentry, _⟩ := List.mem_map.mp hkey
    exact ⟨entry, hentry⟩

section Fill

variable {bucketSize : ℕ} {state : BucketState} {current : List Weight} {weight : Weight}

/-- A weight is read back from its place. -/
theorem receiveWeight_placed (hcontents : Contents bucketSize state current)
    {placed : Weight × ℕ} (hplaced : placed ∈ starts Weight.nbytes 0 current)
    (haligned : placed.1.dtype.itemsize ∣ placed.2) :
    receiveWeight state.buffer placed.1.name (metadataAt placed) = .ok placed.1 := by
  obtain ⟨run, hrun, before, after, rfl, hstart⟩ := startsAt_iff_mem.mpr
    (List.mem_flatMap.mpr ⟨current, List.mem_singleton.mpr rfl, hplaced⟩)
  obtain rfl := List.mem_singleton.mp hrun
  obtain ⟨weight, start⟩ := placed
  simp only at hstart haligned ⊢
  have hbuffer : state.buffer = before.flatMap Weight.data ++ weight.data ++
      (after.flatMap Weight.data ++ state.buffer.drop state.offset) := by
    conv_lhs => rw [← List.take_append_drop state.offset state.buffer, hcontents.written]
    simp
  have hslice : sliceOf state.buffer start weight.nbytes = ⟨start, weight.data⟩ := by
    rw [hbuffer, hstart, ← length_flatMap_data]
    exact sliceOf_append
  have hsize : weight.dtype.itemsize * weight.shape.prod = weight.nbytes := by
    rw [Nat.mul_comm, ← weight.data_length]
    rfl
  simp only [receiveWeight, metadataAt]
  rw [hsize, hslice, viewAs_data, if_pos haligned]

theorem sendMessage_contents (hcontents : Contents bucketSize state current)
    (haligned : AlignedIn [current]) (isLast : Bool) :
    sendMessage state state.bucketMeta isLast =
      .ok { state with received := state.received ++ [(arriving current, isLast)] } := by
  have hbucket : receiveBucket state.buffer state.bucketMeta = .ok (arriving current) := by
    rw [receiveBucket, hcontents.bucketMeta, Dict.entries_map, List.mapM_map, arriving]
    refine mapM_eq_ok_map fun entry hentry => ?_
    obtain ⟨hname, hplaced⟩ := mem_placedOf hentry
    rw [Function.comp_apply, hname]
    refine receiveWeight_placed hcontents hplaced (haligned entry.2 ?_)
    exact List.mem_flatMap.mpr ⟨current, List.mem_singleton.mpr rfl, hplaced⟩
  rw [sendMessage, hbucket]
  rfl

theorem Contents.clear (hcontents : Contents bucketSize state current)
    (received : List (List Weight × Bool)) :
    Contents bucketSize { state with bucketMeta := .empty, offset := 0, received } [] :=
  ⟨hcontents.length, rfl, Nat.zero_le _, rfl, rfl⟩

def BucketState.write (state : BucketState) (weight : Weight) : BucketState where
  buffer := writeAt state.buffer state.offset weight.data
  bucketMeta := state.bucketMeta.insert weight.name (metadataAt (weight, state.offset))
  offset := state.offset + weight.nbytes
  received := state.received

theorem putWeight_contents (hcontents : Contents bucketSize state current)
    (hfits : state.offset + weight.nbytes ≤ bucketSize)
    (haligned : weight.dtype.itemsize ∣ total Weight.nbytes current) :
    putWeight state weight = .ok (state.write weight) ∧
      Contents bucketSize (state.write weight) (current ++ [weight]) := by
  have hdata : weight.data.length = weight.nbytes := rfl
  have hslice : (sliceOf state.buffer state.offset weight.nbytes).bytes.length =
      weight.shape.prod * weight.dtype.itemsize := by
    rw [← weight.data_length, sliceOf, List.length_take, List.length_drop, hcontents.length]
    omega
  have hoffset : weight.dtype.itemsize ∣ state.offset := hcontents.offset ▸ haligned
  obtain ⟨view, hview⟩ := exists_viewAs_eq_ok hoffset hslice weight.name
  have hstart : state.offset ≤ state.buffer.length := hcontents.length ▸ hcontents.le
  refine ⟨by rw [putWeight, hview]; rfl, ?_⟩
  constructor
  · change (writeAt state.buffer state.offset weight.data).length = bucketSize
    rw [length_writeAt (by rw [hcontents.length, hdata]; exact hfits), hcontents.length]
  · change state.offset + weight.nbytes = _
    rw [total_append, total_singleton, hcontents.offset]
  · exact hfits
  · change (writeAt state.buffer state.offset weight.data).take
      (state.offset + weight.data.length) = _
    rw [take_writeAt hstart, hcontents.written, List.flatMap_append, List.flatMap_singleton]
  · change state.bucketMeta.insert weight.name (metadataAt (weight, state.offset)) = _
    rw [placedOf_append_singleton, Dict.map_insert, hcontents.bucketMeta, hcontents.offset]

theorem alignedIn_append (runs others : List (List Weight)) :
    AlignedIn (runs ++ others) ↔ AlignedIn runs ∧ AlignedIn others := by
  simp only [AlignedIn, List.flatMap_append, List.forall_mem_append]

/-- The messages of closed buckets. -/
def deliveries (closed : List (List Weight)) : List (List Weight × Bool) :=
  closed.map fun run => (arriving run, false)

/-- After the first branch of a round there is room, or the bucket is empty. -/
theorem makeRoom_contents (hcontents : Contents bucketSize state current)
    (haligned : AlignedIn [current]) (weight : Weight) :
    ∃ next room closed, makeRoom bucketSize state weight = .ok next ∧
      next.received = state.received ++ deliveries closed ∧ Contents bucketSize next room ∧
      (room = [] ∨ total Weight.nbytes room + weight.nbytes ≤ bucketSize) ∧
      ∀ items, fill bucketSize Weight.nbytes current (weight :: items) =
        closed ++ fill bucketSize Weight.nbytes room (weight :: items) := by
  have hnonempty : 0 < state.bucketMeta.entries.length ↔ current ≠ [] := by
    rw [hcontents.bucketMeta]
    exact entries_length_placedOf
  rw [makeRoom, hcontents.offset]
  split
  next hfull =>
    refine ⟨_, [], [current], by rw [sendMessage_contents hcontents haligned]; rfl, rfl,
      hcontents.clear _, .inl rfl, fun items => ?_⟩
    rw [fill_eq_cons_of_full (hnonempty.mp hfull.2) hfull.1, List.singleton_append]
  next hroom =>
    refine ⟨state, current, [], rfl, (List.append_nil _).symm, hcontents, ?_, fun _ => rfl⟩
    by_cases hempty : current = []
    · exact .inl hempty
    · exact .inr (Nat.not_lt.mp fun hfull => hroom ⟨hfull, hnonempty.mpr hempty⟩)

theorem sendWeight_of_makeRoom {useShm : Bool} {next : BucketState}
    (hmake : makeRoom bucketSize state weight = .ok next) :
    sendWeight bucketSize useShm state weight =
      if bucketSize < next.offset + weight.nbytes then do
        raiseIf (useShm = true) (.tooLarge weight.name weight.shape weight.dtype)
        directSendLargeWeight next weight
      else putWeight next weight := by
  rw [sendWeight, hmake]
  rfl

/-- The rounds of the sender deliver the weights bucket by bucket. -/
theorem foldlM_sendWeight_contents {useShm : Bool} {weights : List Weight}
    (hcontents : Contents bucketSize state current)
    (haligned : AlignedIn (fill bucketSize Weight.nbytes current weights))
    (hshm : useShm = true → ∀ weight ∈ weights, weight.nbytes ≤ bucketSize) :
    ∃ final last closed, weights.foldlM (sendWeight bucketSize useShm) state = .ok final ∧
      final.received = state.received ++ deliveries closed ∧ Contents bucketSize final last ∧
      AlignedIn [last] ∧
      fill bucketSize Weight.nbytes current weights =
        closed ++ if last = [] then [] else [last] := by
  induction weights generalizing state current with
  | nil =>
      refine ⟨state, current, [], rfl, (List.append_nil _).symm, hcontents, ?_, fill_nil current⟩
      rw [fill_nil] at haligned
      split at haligned
      next hempty => simp [hempty, AlignedIn]
      next => exact haligned
  | cons weight weights ih =>
      have hcurrent : AlignedIn [current] := by
        by_cases hempty : current = []
        · simp [hempty, AlignedIn]
        · obtain ⟨more, rest, hfill⟩ := @fill_head _ bucketSize Weight.nbytes current hempty
            (weight :: weights)
          rw [hfill, alignedIn_cons] at haligned
          intro placed hplaced
          refine haligned.1 placed ?_
          rw [List.flatMap_singleton] at hplaced ⊢
          rw [starts_append]
          exact List.mem_append_left _ hplaced
      obtain ⟨next, room, closed, hmake, hreceived, hnext, hroom, hfill⟩ :=
        makeRoom_contents hcontents hcurrent weight
      have hshm' : useShm = true → ∀ other ∈ weights, other.nbytes ≤ bucketSize :=
        fun huse other hother => hshm huse other (List.mem_cons_of_mem weight hother)
      rw [hfill, alignedIn_append] at haligned
      rw [List.foldlM_cons, sendWeight_of_makeRoom hmake, hfill]
      by_cases hlarge : bucketSize < next.offset + weight.nbytes
      · rw [if_pos hlarge]
        obtain rfl : room = [] := by
          rcases hroom with hempty | hfits
          · exact hempty
          · rw [hnext.offset] at hlarge
            omega
        have hover : bucketSize < weight.nbytes := by
          rwa [hnext.offset, total_nil, Nat.zero_add] at hlarge
        have hdevice : ¬ useShm = true := fun huse =>
          absurd (hshm huse weight List.mem_cons_self) (Nat.not_le.mpr hover)
        rw [fill_cons_of_large hover, alignedIn_cons] at haligned
        have hsent : Contents bucketSize
            { next with received := next.received ++ [([weight], false)] } [] :=
          ⟨hnext.length, hnext.offset, hnext.le, hnext.written, hnext.bucketMeta⟩
        obtain ⟨final, last, more, hrun, hfinal, hlast, hlastAligned, hmore⟩ :=
          ih hsent haligned.2.2 hshm'
        refine ⟨final, last, closed ++ [weight] :: more, ?_, ?_, hlast, hlastAligned, ?_⟩
        · rw [raiseIf, if_neg hdevice]
          exact hrun
        · rw [hfinal, hreceived]
          simp [deliveries, arriving_singleton]
        · rw [fill_cons_of_large hover, hmore, List.append_assoc, List.cons_append]
      · rw [if_neg hlarge]
        rw [fill_cons_of_fits hroom] at haligned
        have hstart : weight.dtype.itemsize ∣ total Weight.nbytes room := by
          obtain ⟨more, rest, hhead⟩ := @fill_head _ bucketSize Weight.nbytes
            (room ++ [weight]) (by simp) weights
          rw [hhead, alignedIn_cons] at haligned
          refine haligned.2.1 (weight, total Weight.nbytes room) ?_
          simp [starts_append]
        obtain ⟨hput, hwritten⟩ := putWeight_contents hnext (Nat.not_lt.mp hlarge) hstart
        obtain ⟨final, last, more, hrun, hfinal, hlast, hlastAligned, hmore⟩ :=
          ih hwritten haligned.2 hshm'
        refine ⟨final, last, closed ++ more, ?_, ?_, hlast, hlastAligned, ?_⟩
        · rw [hput]
          exact hrun
        · rw [hfinal, BucketState.write, hreceived]
          simp [deliveries]
        · rw [fill_cons_of_fits hroom, hmore, List.append_assoc]

end Fill

/-! ## Whole transfers -/

/-- When the weights are put into buckets in order, no bucket has a name twice. -/
def NamesDistinct (bucketSize : ℕ) (weights : List Weight) : Prop :=
  ∀ runs, Division bucketSize Weight.nbytes weights runs →
    ∀ run ∈ runs, (run.map Weight.name).Nodup

theorem namesDistinct_iff_fill (bucketSize : ℕ) (weights : List Weight) :
    NamesDistinct bucketSize weights ↔
      ∀ run ∈ fill bucketSize Weight.nbytes [] weights, (run.map Weight.name).Nodup := by
  constructor
  · exact fun hnames => hnames _ (division_iff.mpr rfl)
  · intro hnames runs hdivision
    obtain rfl := division_iff.mp hdivision
    exact hnames

/-- What the lists have to be like that a transfer can deliver. -/
structure Transferable (bucketSize : ℕ) (useShm : Bool) (weights : List Weight) : Prop where
  shm_fits : useShm = true → ∀ weight ∈ weights, weight.nbytes ≤ bucketSize
  aligned : WeightsAligned bucketSize useShm weights
  names : NamesDistinct bucketSize weights

section Transfer

variable {bucketSize : ℕ} {useShm : Bool} {weights : List Weight}

theorem sentWeights_eq_self
    (hshm : useShm = true → ∀ weight ∈ weights, weight.nbytes ≤ bucketSize) :
    sentWeights bucketSize useShm weights = weights := by
  rw [sentWeights, List.takeWhile_eq_self_iff]
  intro weight hweight
  rw [decide_eq_true_eq]
  exact fun hlarge => absurd (hshm hlarge.1 weight hweight) (Nat.not_le.mpr hlarge.2)

/-- With shared memory a run that goes through has met no weight that is too large. -/
theorem nbytes_le_of_foldlM {state final : BucketState}
    (hrun : weights.foldlM (sendWeight bucketSize true) state = .ok final) :
    ∀ weight ∈ weights, weight.nbytes ≤ bucketSize := by
  induction weights generalizing state with
  | nil => simp
  | cons weight weights ih =>
      rw [List.foldlM_cons] at hrun
      obtain ⟨next, hsend, hrest⟩ := bind_eq_ok.mp hrun
      rw [List.forall_mem_cons]
      refine ⟨?_, ih hrest⟩
      obtain ⟨room, hmake, _⟩ := bind_eq_ok.mp hsend
      rw [sendWeight_of_makeRoom hmake] at hsend
      split at hsend
      next hlarge => cases hsend
      next hfits => omega

theorem bucketedTransfer_eq_ok (buffer : SharedBuffer bucketSize)
    (hshm : useShm = true → ∀ weight ∈ weights, weight.nbytes ≤ bucketSize)
    (haligned : WeightsAligned bucketSize useShm weights) :
    ∃ closed last, bucketedTransfer buffer useShm weights =
        .ok (deliveries closed ++ [(arriving last, true)]) ∧
      fill bucketSize Weight.nbytes [] weights = closed ++ if last = [] then [] else [last] := by
  have hstart : Contents bucketSize ⟨buffer.bytes, .empty, 0, []⟩ [] :=
    ⟨buffer.length_bytes, rfl, Nat.zero_le _, rfl, rfl⟩
  rw [weightsAligned_iff_fill, sentWeights_eq_self hshm] at haligned
  obtain ⟨final, last, closed, hrun, hfinal, hlast, hlastAligned, hfill⟩ :=
    foldlM_sendWeight_contents hstart haligned hshm
  refine ⟨closed, last, ?_, hfill⟩
  rw [bucketedTransfer, hrun]
  change (sendMessage final final.bucketMeta true >>= _) = _
  rw [sendMessage_contents hlast hlastAligned, hfinal, List.nil_append]
  rfl

/-- A transfer that goes through delivers all weights exactly when no bucket has a name
twice. -/
theorem bucketedTransfer_delivers_iff (buffer : SharedBuffer bucketSize) :
    (∃ received, bucketedTransfer buffer useShm weights = .ok received ∧
        received.flatMap Prod.fst = weights) ↔ Transferable bucketSize useShm weights := by
  have hdelivered : ∀ closed last,
      fill bucketSize Weight.nbytes [] weights = closed ++ (if last = [] then [] else [last]) →
      ((deliveries closed ++ [(arriving last, true)]).flatMap Prod.fst = weights ↔
        NamesDistinct bucketSize weights) := by
    intro closed last hfill
    have hflat : (deliveries closed ++ [(arriving last, true)]).flatMap Prod.fst =
        (fill bucketSize Weight.nbytes [] weights).flatMap arriving := by
      rw [hfill, deliveries, List.flatMap_append, List.flatMap_append, List.flatMap_map,
        List.flatMap_singleton]
      by_cases hempty : last = []
      · have hnothing : arriving [] = [] := rfl
        simp [hempty, hnothing]
      · simp [hempty]
    rw [hflat, namesDistinct_iff_fill, ← flatMap_arriving_eq_iff, flatten_fill]
  constructor
  · rintro ⟨received, htransfer, hweights⟩
    have hshm : useShm = true → ∀ weight ∈ weights, weight.nbytes ≤ bucketSize := by
      rintro rfl
      obtain ⟨final, hrun, _⟩ := bind_eq_ok.mp htransfer
      exact nbytes_le_of_foldlM hrun
    have haligned : WeightsAligned bucketSize useShm weights := by
      refine (bucketedTransfer_misaligned_iff buffer useShm weights).mp fun name herror => ?_
      rw [htransfer] at herror
      cases herror
    obtain ⟨closed, last, hok, hfill⟩ := bucketedTransfer_eq_ok buffer hshm haligned
    obtain rfl := Except.ok.inj (htransfer.symm.trans hok)
    exact ⟨hshm, haligned, (hdelivered closed last hfill).mp hweights⟩
  · rintro ⟨hshm, haligned, hnames⟩
    obtain ⟨closed, last, hok, hfill⟩ := bucketedTransfer_eq_ok buffer hshm haligned
    exact ⟨_, hok, (hdelivered closed last hfill).mpr hnames⟩

end Transfer

end OneShotOPD.WeightSync
