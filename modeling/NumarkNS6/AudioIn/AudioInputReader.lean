import NumarkNS6.Foundation.CircularStore
import NumarkNS6.Usb.SlotReaderRuns

namespace NumarkNS6.AudioIn

open Foundation.CircularStore Foundation.Runs Foundation.SlotWindow Usb

abbrev Buffer := Option (List UInt8)

/-- The members of `AudioInputReader` beside those of every slot reader. `buffers`
counts the blocks allocated and not yet freed; `published` lists the blocks
handed to `AudioInputEngine::publishUSBBlock` since the last start. -/
structure InputState where
  completedTransfers : UInt64
  transportErrors : UInt64
  lastError : IOReturn
  readsOver50ms : UInt64
  maxReadMicros : UInt64
  buffers : ℕ
  published : List (List UInt8)

abbrev AudioInputReader := System Buffer InputState

namespace AudioInputReader

def transferBytes : ℕ := 10240

def slotCount : ℕ := 8

def arrive (micros : UInt64) (own : InputState) : InputState :=
  { own with
    readsOver50ms := if micros > 50000 then own.readsOver50ms + 1 else own.readsOver50ms
    maxReadMicros := if micros > own.maxReadMicros then micros else own.maxReadMicros }

def countError (error : IOReturn) (own : InputState) : InputState :=
  { own with transportErrors := own.transportErrors + 1, lastError := error }

def process (r : SlotReader Buffer InputState) (h : Handles) (clearStall : IOReturn)
    (slot : Slot Buffer Report) : Bool × InputState :=
  let status := slot.report.status
  if status = .success then
    let block := slice (slot.data.getD []) 0 slot.report.bytes.toNat
    (true, { r.own with
      completedTransfers := r.own.completedTransfers + 1
      published := if r.client then r.own.published ++ [block] else r.own.published })
  else
    let lost := status = .noDevice ∨
      (status = .pipeStalled ∧ r.session ∧ (!h.interface ∨ clearStall ≠ .success))
    (!decide lost, countError status r.own)

/-- `malloc` for one slot after the other until one fails: the number of blocks
obtained, whether all were, and the slots. Fresh contents are indeterminate; nothing reads them. -/
def allocate (malloc : ℕ → Bool) : ℕ → List (Slot Buffer Report) →
    ℕ × Bool × List (Slot Buffer Report)
  | i, [] => (i, true, [])
  | i, slot :: rest =>
    if malloc i then
      let t := allocate malloc (i + 1) rest
      (t.1, t.2.1, { slot with data := some (List.replicate transferBytes 0) } :: t.2.2)
    else (i, false, { slot with data := none } :: rest)

def releaseBuffers (slots : List (Slot Buffer Report)) (own : InputState) :
    List (Slot Buffer Report) × InputState :=
  (slots.map fun slot ↦ { slot with data := none },
    { own with buffers := own.buffers - slots.countP (·.data.isSome) })

def prepare (malloc : ℕ → Bool) (slots : List (Slot Buffer Report)) (own : InputState) :
    IOReturn × List (Slot Buffer Report) × InputState :=
  let t := allocate malloc 0 slots
  let own := { own with buffers := own.buffers + t.1, published := [] }
  if t.2.1 then (.success, t.2.2, own) else (.noMemory, releaseBuffers t.2.2 own)

def kind : Kind Buffer InputState where
  slotCount := slotCount
  transferBytes := transferBytes
  store data payload := data.map (splice · 0 payload)
  arrive := arrive
  process := process
  submitFailed := countError
  prepare := prepare
  release := releaseBuffers

def start (answers : Answers) (s : AudioInputReader) : AudioInputReader := System.start kind answers s

def stop (answers : Answers) (s : AudioInputReader) : AudioInputReader :=
  System.stop kind answers none s

def drainCompletions (answers : Answers) (passes : ℕ) (s : AudioInputReader) : AudioInputReader :=
  System.drainCompletions kind answers passes s

def step (s : AudioInputReader) (a : System.Action) : Option AudioInputReader := System.step kind s a

def initial (handles : Handles) : AudioInputReader :=
  System.initial kind handles none ⟨0, 0, .success, 0, 0, 0, []⟩

def blocks (ds : List Delivery) : List (List UInt8) :=
  ds.filterMap fun d ↦ if d.status = .success then some d.payload else none

def Ready (b : Buffer) : Prop := ∃ m, b = some m ∧ m.length = transferBytes

def Stored (b : Buffer) (report : Report) (d : Delivery) : Prop :=
  report.status = d.status ∧ slice (b.getD []) 0 report.bytes.toNat = d.payload

def Published (own : InputState) (ds : List Delivery) : Prop := own.published = blocks ds

theorem allocate_spec (malloc : ℕ → Bool) (i : ℕ) (slots : List (Slot Buffer Report)) :
    (allocate malloc i slots).2.2.map System.flags = slots.map System.flags ∧
      ((allocate malloc i slots).2.1 = true →
        ∀ slot ∈ (allocate malloc i slots).2.2, Ready slot.data) := by
  induction slots generalizing i with
  | nil => simp [allocate]
  | cons slot rest ih =>
    obtain ⟨hf, hr⟩ := ih (i + 1)
    cases hm : malloc i with
    | false => simp [allocate, hm, System.flags]
    | true =>
      simp only [allocate, hm, if_true, List.map_cons, hf, List.mem_cons]
      refine ⟨rfl, fun hok t ht ↦ ?_⟩
      rcases ht with rfl | ht
      · exact ⟨_, rfl, List.length_replicate⟩
      · exact hr hok t ht

theorem releaseBuffers_flags (slots : List (Slot Buffer Report)) (own : InputState) :
    (releaseBuffers slots own).1.map System.flags = slots.map System.flags := by
  simp [releaseBuffers, System.flags, Function.comp_def]

theorem slice_splice_zero (m p : List UInt8) : slice (splice m 0 p) 0 p.length = p := by
  simp [slice, splice]

theorem lawful : System.Lawful kind Ready Stored Published where
  slots := by decide
  store := by
    rintro _ d ⟨m, rfl, hm⟩ hd
    have hle : d.payload.length ≤ m.length := hm ▸ hd
    have hbytes : (UInt32.ofNat d.payload.length).toNat = d.payload.length := by
      rw [UInt32.toNat_ofNat']
      exact Nat.mod_eq_of_lt (lt_of_le_of_lt hd (by decide))
    refine ⟨⟨splice m 0 d.payload, rfl, ?_⟩, rfl, ?_⟩
    · rw [splice_length (by omega), hm]
    · simp only [kind, Option.map_some, Option.getD_some, hbytes]
      exact slice_splice_zero m d.payload
  arrive _ _ _ h := h
  process := by
    intro r h clear slot ds d hs hc hi hT hst _
    obtain ⟨hstatus, hdata⟩ := hst
    simp only [Published, blocks] at hT
    by_cases hok : d.status = .success
    · simp [kind, process, Published, blocks, hstatus, hok, hc, hdata, hT]
    · simp [kind, process, Published, blocks, hstatus, hok, hT, countError]
  submitFailed _ _ _ h := h
  prepare := by
    intro malloc slots own
    obtain ⟨hf, hr⟩ := allocate_spec malloc 0 slots
    cases hok : (allocate malloc 0 slots).2.1 with
    | false => exact ⟨by simpa [kind, prepare, hok] using (releaseBuffers_flags _ _).trans hf, by
        simp [kind, prepare, hok, Published, blocks, releaseBuffers], by simp [kind, prepare, hok]⟩
    | true => exact ⟨by simp [kind, prepare, hok, hf], by simp [kind, prepare, hok, Published, blocks],
        fun _ ↦ by simpa [kind, prepare, hok] using hr hok⟩
  release slots own := ⟨releaseBuffers_flags slots own, fun _ h ↦ h⟩

/-- What a reorder buffer of eight slots owes its reader between any two calls
or callbacks. Sequence numbers are machine words, so the range from
`nextProcessSequence_` to `nextSubmitSequence_` is stated by its length. -/
structure ReorderBuffer (s : AudioInputReader) : Prop where
  numbers : s.reader.nextProcessSequence = UInt64.ofNat s.processed ∧
    s.reader.nextSubmitSequence = UInt64.ofNat s.since.length
  size : s.processed ≤ s.since.length ∧ s.since.length ≤ s.processed + slotCount
  distinct : ∀ (i k : ℕ) (a b : Slot Buffer Report), s.reader.slots[i]? = some a → s.reader.slots[k]? = some b →
    a.busy = true → b.busy = true → a.sequence = b.sequence → i = k
  outstanding : ∀ n, (∃ slot ∈ s.reader.slots, slot.busy = true ∧ slot.sequence = n) ↔
    ∃ j < s.since.length - s.processed, n = s.reader.nextProcessSequence + UInt64.ofNat j
  reuse : ∀ (n m : ℕ) (r r' : Request Delivery), n < m → s.since[n]? = some r →
    s.since[m]? = some r' → r.slot = r'.slot → n < r'.after
  published : s.reader.own.published = blocks s.deliveries
  processed : s.deliveries.length = s.processed
  running : s.reader.running = true →
    s.reader.slots.length = slotCount ∧ ∀ slot ∈ s.reader.slots, slot.busy = true
  terminates : ∀ answers t, t.reader.slots.length ≤ slotCount → ∀ passes ≥ slotCount,
    (drainCompletions answers passes t).next = none ∧
      drainCompletions answers passes t = drainCompletions answers slotCount t

theorem drainCompletions_terminates (answers : Answers) (t : AudioInputReader)
    (h : t.reader.slots.length ≤ slotCount) (passes : ℕ) (hp : slotCount ≤ passes) :
    (drainCompletions answers passes t).next = none ∧
      drainCompletions answers passes t = drainCompletions answers slotCount t := by
  have hc : t.completedCount ≤ slotCount := List.countP_le_length.trans h
  obtain ⟨k, rfl⟩ := Nat.exists_eq_add_of_le hp
  exact ⟨System.drainCompletions_ends answers kind _ (by omega),
    System.drainCompletions_stable answers kind _ hc k⟩

/-- Every state of every run of calls and callbacks is an exact reorder buffer. -/
theorem reorderBuffer_of_run (handles : Handles) (as : List System.Action) (s : AudioInputReader)
    (h : Run step (initial handles) as s) : ReorderBuffer s := by
  obtain ⟨order, hinv⟩ := System.run_inv lawful (by rfl) h
  have ht := hinv.tracked
  have hw := ht.window
  have hlen := hw.length
  have hle : order.length ≤ slotCount := hw.order_length_le.trans_eq ht.length
  have hlt : s.reader.slots.length < 2 ^ 64 := ht.length.trans_lt (by decide)
  refine ⟨⟨ht.process, ht.submit⟩, by omega, ?_, ?_, hw.reuse, ht.own, hw.answers_length, ?_,
    drainCompletions_terminates⟩
  · intro i k a b ha hb
    exact hw.sequence_inj hlt ha hb
  · intro n
    rw [hw.sequence_iff, ht.process]
    simp only [show s.since.length - s.processed = order.length by omega, ← UInt64.ofNat_add]
  · intro hr
    exact ⟨ht.length, fun slot hs ↦ hw.full ((hinv.full hr).trans ht.length.symm) hs⟩

theorem reorderBuffer_swapped : ∃ s : AudioInputReader,
    Run step (initial ⟨true, 3, true⟩)
      [.start .allSucceed, .complete .allSucceed 10 1 ⟨.success, [2]⟩,
        .complete .allSucceed 20 0 ⟨.success, [1]⟩] s ∧
      s.reader.own.published = [[1], [2]] ∧ ReorderBuffer s :=
  have h : Run step (initial ⟨true, 3, true⟩)
      [.start .allSucceed, .complete .allSucceed 10 1 ⟨.success, [2]⟩,
        .complete .allSucceed 20 0 ⟨.success, [1]⟩] _ := .of_foldlM rfl
  ⟨_, h, rfl, reorderBuffer_of_run _ _ _ h⟩

end AudioInputReader

end NumarkNS6.AudioIn
