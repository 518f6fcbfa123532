import NumarkNS6.AudioOut.RingTransfer
import NumarkNS6.Foundation.Runs

namespace NumarkNS6.AudioOut.RingInterleaving

open Foundation.CircularStore Foundation.Runs AudioOutputRing

variable {α : Type}

/-- Where the producer stands inside `write`. Every atomic access and every
`memcpy` is a step of its own. -/
inductive Producer (α : Type)
  | idle
  | called (source : List α) (frames : UInt32)
  | loadedWrite (source : List α) (frames writeFrame : UInt32)
  | loaded (source : List α) (writeFrame : UInt32) (t : Transfer)
  | copiedFirst (source : List α) (writeFrame : UInt32) (t : Transfer)
  | copied (source : List α) (writeFrame : UInt32) (t : Transfer)

/-- Where the consumer stands inside `read`, with the samples copied so far. -/
inductive Consumer (α : Type)
  | idle
  | called (frames : UInt32)
  | loadedRead (frames readFrame : UInt32)
  | loaded (readFrame : UInt32) (t : Transfer)
  | copiedFirst (readFrame : UInt32) (t : Transfer) (out : List α)
  | copied (readFrame : UInt32) (t : Transfer) (out : List α)

structure System (α : Type) where
  ring : AudioOutputRing α
  producer : Producer α
  consumer : Consumer α
  accepted : List α
  acceptedFrames : ℕ
  returned : List α
  returnedFrames : ℕ

inductive Action (α : Type)
  | write (interleaved : Option (List α)) (frames : UInt32)
  | producer
  | read (buffer : Bool) (frames : UInt32)
  | consumer

def initial (ring : AudioOutputRing α) : System α where
  ring := ring
  producer := .idle
  consumer := .idle
  accepted := []
  acceptedFrames := 0
  returned := []
  returnedFrames := 0

/-- A call of `write`. The caller's buffer holds the frames it announces. -/
def callWrite (s : System α) (interleaved : Option (List α)) (frames : UInt32) :
    Option (System α) :=
  match s.producer, interleaved with
  | .idle, none => some s
  | .idle, some source =>
    if source.length ≠ frames.toNat * s.ring.channels.toNat then none
    else if frames = 0 then some s
    else some { s with producer := .called source frames }
  | _, _ => none

def producerStep (s : System α) : Option (System α) :=
  match s.producer with
  | .idle => none
  | .called source frames =>
    some { s with producer := .loadedWrite source frames s.ring.writeFrame }
  | .loadedWrite source frames writeFrame =>
    let t := s.ring.writeTransfer writeFrame s.ring.readFrame frames
    some { s with producer := .loaded source writeFrame t }
  | .loaded source writeFrame t =>
    some { s with ring := s.ring.copyInFirst t source, producer := .copiedFirst source writeFrame t }
  | .copiedFirst source writeFrame t =>
    some { s with ring := s.ring.copyInRest t source, producer := .copied source writeFrame t }
  | .copied source writeFrame t =>
    some { s with
      ring := s.ring.storeWriteFrame (writeFrame + t.count)
      producer := .idle
      accepted := s.accepted ++ source.take (t.count.toNat * s.ring.channels.toNat)
      acceptedFrames := s.acceptedFrames + t.count.toNat }

def callRead (s : System α) (buffer : Bool) (frames : UInt32) : Option (System α) :=
  match s.consumer with
  | .idle =>
    if buffer = false ∨ frames = 0 then some s else some { s with consumer := .called frames }
  | _ => none

def consumerStep (s : System α) : Option (System α) :=
  match s.consumer with
  | .idle => none
  | .called frames => some { s with consumer := .loadedRead frames s.ring.readFrame }
  | .loadedRead frames readFrame =>
    let t := s.ring.readTransfer readFrame s.ring.writeFrame frames
    some { s with consumer := .loaded readFrame t }
  | .loaded readFrame t =>
    some { s with consumer := .copiedFirst readFrame t (s.ring.copyOutFirst t) }
  | .copiedFirst readFrame t out =>
    some { s with consumer := .copied readFrame t (out ++ s.ring.copyOutRest t) }
  | .copied readFrame t out =>
    some { s with
      ring := s.ring.storeReadFrame (readFrame + t.count)
      consumer := .idle
      returned := s.returned ++ out
      returnedFrames := s.returnedFrames + t.count.toNat }

def step (s : System α) : Action α → Option (System α)
  | .write interleaved frames => callWrite s interleaved frames
  | .producer => producerStep s
  | .read buffer frames => callRead s buffer frames
  | .consumer => consumerStep s

theorem step_dimensions {s s' : System α} {a : Action α} (hstep : step s a = some s') :
    s'.ring.capacityFrames = s.ring.capacityFrames ∧ s'.ring.channels = s.ring.channels := by
  cases a with
  | write interleaved frames =>
    simp only [step, callWrite] at hstep
    split at hstep
    · cases hstep; exact ⟨rfl, rfl⟩
    · split_ifs at hstep <;> cases hstep <;> exact ⟨rfl, rfl⟩
    · cases hstep
  | producer =>
    simp only [step, producerStep] at hstep
    split at hstep <;> cases hstep
    case h_5 => exact ⟨copyInRest_capacityFrames _ _ _, copyInRest_channels _ _ _⟩
    all_goals exact ⟨rfl, rfl⟩
  | read buffer frames =>
    simp only [step, callRead] at hstep
    split at hstep
    · split_ifs at hstep <;> cases hstep <;> exact ⟨rfl, rfl⟩
    · cases hstep
  | consumer =>
    simp only [step, consumerStep] at hstep
    split at hstep <;> cases hstep <;> exact ⟨rfl, rfl⟩

def slotOf (s : System α) (n : ℕ) : ℕ := (UInt32.ofNat n % s.ring.capacityFrames).toNat

/-- The slots the producer's next step writes to. -/
def overwritten (s : System α) : Set ℕ :=
  match s.producer with
  | .loaded _ _ t => {k | t.offset.toNat ≤ k ∧ k < t.offset.toNat + t.firstFrames.toNat}
  | .copiedFirst _ _ t => {k | k < t.remainingFrames.toNat}
  | _ => ∅

/-- The producer has fixed a transfer. The read index it used may be stale,
but the room it saw can only have grown since. -/
structure Claimed (s : System α) (source : List α) (writeFrame : UInt32) (t : Transfer) : Prop where
  index : writeFrame = UInt32.ofNat s.acceptedFrames
  located : Located s.ring s.acceptedFrames t
  source_length : t.count.toNat * s.ring.channels.toNat ≤ source.length
  room : s.acceptedFrames + t.count.toNat ≤ s.returnedFrames + s.ring.capacityFrames.toNat

/-- The consumer has fixed a transfer. The frames it saw stay available. -/
structure Granted (s : System α) (readFrame : UInt32) (t : Transfer) : Prop where
  index : readFrame = UInt32.ofNat s.returnedFrames
  located : Located s.ring s.returnedFrames t
  present : s.returnedFrames + t.count.toNat ≤ s.acceptedFrames

def ProducerInv (s : System α) : Prop :=
  match s.producer with
  | .idle => True
  | .called source frames => source.length = frames.toNat * s.ring.channels.toNat
  | .loadedWrite source frames writeFrame =>
    source.length = frames.toNat * s.ring.channels.toNat ∧
      writeFrame = UInt32.ofNat s.acceptedFrames
  | .loaded source writeFrame t => Claimed s source writeFrame t
  | .copiedFirst source writeFrame t => Claimed s source writeFrame t ∧
    Holds s.ring.samples (s.acceptedFrames * s.ring.channels.toNat)
      (source.take (s.ring.firstSamples t))
  | .copied source writeFrame t => Claimed s source writeFrame t ∧
    Holds s.ring.samples (s.acceptedFrames * s.ring.channels.toNat)
      (source.take (t.count.toNat * s.ring.channels.toNat))

def ConsumerInv (s : System α) : Prop :=
  match s.consumer with
  | .idle | .called _ => True
  | .loadedRead _ readFrame => readFrame = UInt32.ofNat s.returnedFrames
  | .loaded readFrame t => Granted s readFrame t
  | .copiedFirst readFrame t out => Granted s readFrame t ∧
    out = slice s.accepted (s.returnedFrames * s.ring.channels.toNat) (s.ring.firstSamples t)
  | .copied readFrame t out => Granted s readFrame t ∧
    out = slice s.accepted (s.returnedFrames * s.ring.channels.toNat)
      (t.count.toNat * s.ring.channels.toNat)

structure Stored (s : System α) : Prop where
  shape : Shape s.ring
  divides : s.ring.capacityFrames.toNat ∣ 2 ^ 32
  writeIndex : s.ring.writeFrame = UInt32.ofNat s.acceptedFrames
  readIndex : s.ring.readFrame = UInt32.ofNat s.returnedFrames
  order : s.returnedFrames ≤ s.acceptedFrames
  room : s.acceptedFrames ≤ s.returnedFrames + s.ring.capacityFrames.toNat
  accepted_length : s.accepted.length = s.acceptedFrames * s.ring.channels.toNat
  returned_eq : s.returned = s.accepted.take (s.returnedFrames * s.ring.channels.toNat)
  unread : Holds s.ring.samples (s.returnedFrames * s.ring.channels.toNat)
    (s.accepted.drop (s.returnedFrames * s.ring.channels.toNat))

structure Inv (s : System α) : Prop where
  stored : Stored s
  producer : ProducerInv s
  consumer : ConsumerInv s

theorem Stored.unread_length {s : System α} (h : Stored s) :
    s.returnedFrames * s.ring.channels.toNat +
      (s.accepted.drop (s.returnedFrames * s.ring.channels.toNat)).length =
    s.acceptedFrames * s.ring.channels.toNat := by
  have hle := Nat.mul_le_mul_right s.ring.channels.toNat h.order
  rw [List.length_drop, h.accepted_length]
  omega

theorem ConsumerInv.mono {s s' : System α} (h : ConsumerInv s) (hs : Stored s)
    (hconsumer : s'.consumer = s.consumer) (hreturned : s'.returnedFrames = s.returnedFrames)
    (hcapacity : s'.ring.capacityFrames = s.ring.capacityFrames)
    (hchannels : s'.ring.channels = s.ring.channels)
    (haccepted : s.acceptedFrames ≤ s'.acceptedFrames)
    (hlog : ∃ more, s'.accepted = s.accepted ++ more) : ConsumerInv s' := by
  obtain ⟨more, hmore⟩ := hlog
  have hgranted {readFrame : UInt32} {t : Transfer} (hg : Granted s readFrame t) :
      Granted s' readFrame t := by
    obtain ⟨hi, hl, hp⟩ := hg
    rw [← hreturned] at hi hl hp
    exact ⟨hi, hl.congr hcapacity, by omega⟩
  have hslice {t : Transfer} {n : ℕ} (hp : s.returnedFrames + t.count.toNat ≤ s.acceptedFrames)
      (hn : n ≤ t.count.toNat * s.ring.channels.toNat) :
      slice s'.accepted (s.returnedFrames * s.ring.channels.toNat) n =
        slice s.accepted (s.returnedFrames * s.ring.channels.toNat) n := by
    have hle := Nat.mul_le_mul_right s.ring.channels.toNat hp
    rw [Nat.add_mul, ← hs.accepted_length] at hle
    rw [hmore, slice_append_left (by omega)]
  unfold ConsumerInv at h ⊢
  rw [hconsumer]
  cases hc : s.consumer with
  | idle => trivial
  | called frames => trivial
  | loadedRead frames readFrame => simpa only [hc, hreturned] using h
  | loaded readFrame t =>
    simp only [hc] at h
    exact hgranted h
  | copiedFirst readFrame t out =>
    simp only [hc] at h
    have hle : s.ring.firstSamples t ≤ t.count.toNat * s.ring.channels.toNat :=
      h.1.located.first_samples_le
    refine ⟨hgranted h.1, ?_⟩
    rw [firstSamples, hreturned, hchannels, ← firstSamples, hslice h.1.present hle]
    exact h.2
  | copied readFrame t out =>
    simp only [hc] at h
    refine ⟨hgranted h.1, ?_⟩
    rw [hreturned, hchannels, hslice h.1.present le_rfl]
    exact h.2

/-- The producer's view survives whatever the consumer does: the consumer
never writes samples, and the read index only advances. -/
theorem ProducerInv.mono {s s' : System α} (h : ProducerInv s)
    (hproducer : s'.producer = s.producer) (haccepted : s'.acceptedFrames = s.acceptedFrames)
    (hcapacity : s'.ring.capacityFrames = s.ring.capacityFrames)
    (hchannels : s'.ring.channels = s.ring.channels)
    (hsamples : s'.ring.samples = s.ring.samples)
    (hreturned : s.returnedFrames ≤ s'.returnedFrames) : ProducerInv s' := by
  have hclaimed {source : List α} {writeFrame : UInt32} {t : Transfer}
      (hc : Claimed s source writeFrame t) : Claimed s' source writeFrame t := by
    obtain ⟨hi, hl, hlen, hroom⟩ := hc
    rw [← haccepted] at hi hl hroom
    exact ⟨hi, hl.congr hcapacity, by rwa [hchannels], by rw [hcapacity]; omega⟩
  unfold ProducerInv at h ⊢
  rw [hproducer]
  cases hp : s.producer with
  | idle => trivial
  | called source frames => simpa only [hp, hchannels] using h
  | loadedWrite source frames writeFrame => simpa only [hp, hchannels, haccepted] using h
  | loaded source writeFrame t =>
    simp only [hp] at h
    exact hclaimed h
  | copiedFirst source writeFrame t =>
    simp only [hp] at h
    refine ⟨hclaimed h.1, ?_⟩
    rw [hsamples, haccepted, hchannels, firstSamples, hchannels]
    exact h.2
  | copied source writeFrame t =>
    simp only [hp] at h
    refine ⟨hclaimed h.1, ?_⟩
    rw [hsamples, haccepted, hchannels]
    exact h.2

theorem initial_inv {ring : AudioOutputRing α} (hs : Shape ring)
    (hd : ring.capacityFrames.toNat ∣ 2 ^ 32) (hw : ring.writeFrame = 0)
    (hr : ring.readFrame = 0) : Inv (initial ring) := by
  refine ⟨⟨hs, hd, hw, hr, le_rfl, Nat.zero_le _, ?_, ?_, ?_⟩, trivial, trivial⟩
  · simp [initial]
  · simp [initial]
  · simpa [initial] using Holds.nil ring.samples _

theorem Inv.setProducer {s : System α} (h : Inv s) (p : Producer α)
    (hp : ProducerInv { s with producer := p }) : Inv { s with producer := p } := by
  obtain ⟨h₁, h₂, h₃, h₄, h₅, h₆, h₇, h₈, h₉⟩ := h.stored
  exact ⟨⟨h₁, h₂, h₃, h₄, h₅, h₆, h₇, h₈, h₉⟩, hp,
    h.consumer.mono h.stored rfl rfl rfl rfl le_rfl ⟨[], by simp⟩⟩

theorem Inv.setConsumer {s : System α} (h : Inv s) (c : Consumer α)
    (hc : ConsumerInv { s with consumer := c }) : Inv { s with consumer := c } := by
  obtain ⟨h₁, h₂, h₃, h₄, h₅, h₆, h₇, h₈, h₉⟩ := h.stored
  exact ⟨⟨h₁, h₂, h₃, h₄, h₅, h₆, h₇, h₈, h₉⟩,
    h.producer.mono rfl rfl rfl rfl rfl le_rfl, hc⟩

theorem callWrite_inv {s s' : System α} {interleaved : Option (List α)} {frames : UInt32}
    (h : Inv s) (hstep : callWrite s interleaved frames = some s') : Inv s' := by
  unfold callWrite at hstep
  split at hstep
  · cases hstep
    exact h
  · split_ifs at hstep with hlen h₀
    · cases hstep
      exact h
    · cases hstep
      exact h.setProducer _ (not_not.mp hlen)
  · cases hstep

theorem callRead_inv {s s' : System α} {buffer : Bool} {frames : UInt32}
    (h : Inv s) (hstep : callRead s buffer frames = some s') : Inv s' := by
  unfold callRead at hstep
  split at hstep
  · split_ifs at hstep
    · cases hstep
      exact h
    · cases hstep
      exact h.setConsumer _ trivial
  · cases hstep

theorem Stored.claim {s : System α} (h : Stored s) {source : List α} {frames : UInt32}
    (hlen : source.length = frames.toNat * s.ring.channels.toNat) :
    Claimed s source s.ring.writeFrame
      (s.ring.writeTransfer s.ring.writeFrame s.ring.readFrame frames) := by
  have hcount := writeTransfer_count h.shape h.order h.room frames
  rw [← h.writeIndex, ← h.readIndex] at hcount
  refine ⟨h.writeIndex, ?_, ?_, ?_⟩
  · rw [writeTransfer, h.writeIndex]
    exact located_transfer h.shape h.divides _ _
  · rw [hcount, hlen]
    exact Nat.mul_le_mul_right _ (Nat.min_le_left _ _)
  · have hroom := h.room
    rw [hcount]
    omega

theorem Stored.grant {s : System α} (h : Stored s) (frames : UInt32) :
    Granted s s.ring.readFrame
      (s.ring.readTransfer s.ring.readFrame s.ring.writeFrame frames) := by
  have hcount := readTransfer_count h.shape h.order h.room frames
  rw [← h.writeIndex, ← h.readIndex] at hcount
  refine ⟨h.readIndex, ?_, ?_⟩
  · rw [readTransfer, h.readIndex]
    exact located_transfer h.shape h.divides _ _
  · have horder := h.order
    rw [hcount]
    omega

theorem Claimed.count_le {s : System α} {source : List α} {writeFrame : UInt32} {t : Transfer}
    (hc : Claimed s source writeFrame t) (h : Stored s) :
    t.count.toNat ≤ s.ring.capacityFrames.toNat := by
  have hroom := hc.room
  have horder := h.order
  omega

theorem Claimed.lap {s : System α} {source : List α} {writeFrame : UInt32} {t : Transfer}
    (hc : Claimed s source writeFrame t) (h : Stored s) :
    (s.acceptedFrames + t.count.toNat) * s.ring.channels.toNat ≤
      s.returnedFrames * s.ring.channels.toNat + s.ring.samples.length := by
  have hle := Nat.mul_le_mul_right s.ring.channels.toNat hc.room
  rwa [Nat.add_mul s.returnedFrames, ← h.shape.samples_length] at hle

theorem loaded_inv {s : System α} {source : List α} {writeFrame : UInt32} {t : Transfer}
    (h : Stored s) (hc : Claimed s source writeFrame t) (hconsumer : ConsumerInv s) :
    Inv { s with
      ring := s.ring.copyInFirst t source, producer := .copiedFirst source writeFrame t } := by
  have hshape := copyInFirst_shape hc.located h.shape hc.source_length
  have hunread := copyInFirst_old hc.located h.shape hc.source_length h.unread
    h.unread_length.le (hc.lap h)
  refine ⟨⟨hshape, h.divides, h.writeIndex, h.readIndex, h.order, h.room, h.accepted_length,
    h.returned_eq, hunread⟩, ⟨⟨hc.index, hc.located.congr rfl, hc.source_length, hc.room⟩, ?_⟩, ?_⟩
  · exact copyInFirst_new hc.located h.shape hc.source_length
  · exact hconsumer.mono h rfl rfl rfl rfl le_rfl ⟨[], by simp⟩

theorem copiedFirst_inv {s : System α} {source : List α} {writeFrame : UInt32} {t : Transfer}
    (h : Stored s) (hc : Claimed s source writeFrame t)
    (hfirst : Holds s.ring.samples (s.acceptedFrames * s.ring.channels.toNat)
      (source.take (s.ring.firstSamples t))) (hconsumer : ConsumerInv s) :
    Inv { s with
      ring := s.ring.copyInRest t source, producer := .copied source writeFrame t } := by
  have hcount := hc.count_le h
  have hcapacity := copyInRest_capacityFrames s.ring t source
  have hchannels := copyInRest_channels s.ring t source
  have hwrite := copyInRest_writeFrame s.ring t source
  have hread := copyInRest_readFrame s.ring t source
  have hunread := copyInRest_old hc.located h.shape hc.source_length hcount h.unread
    (h.unread_length.le.trans (Nat.le_add_right _ _)) (hc.lap h)
  have hnew := copyInRest_new hc.located h.shape hc.source_length hcount hfirst
  refine ⟨⟨copyInRest_shape hc.located h.shape hc.source_length hcount, ?_, hwrite.trans h.writeIndex,
    hread.trans h.readIndex, h.order, ?_, ?_, ?_, ?_⟩, ⟨⟨hc.index, hc.located.congr hcapacity, ?_, ?_⟩,
      ?_⟩, hconsumer.mono h rfl rfl hcapacity hchannels le_rfl ⟨[], by simp⟩⟩
  all_goals simp only [hcapacity, hchannels]
  · exact h.divides
  · exact h.room
  · exact h.accepted_length
  · exact h.returned_eq
  · exact hunread
  · exact hc.source_length
  · exact hc.room
  · exact hnew

theorem copied_inv {s : System α} {source : List α} {writeFrame : UInt32} {t : Transfer}
    (h : Stored s) (hc : Claimed s source writeFrame t)
    (hnew : Holds s.ring.samples (s.acceptedFrames * s.ring.channels.toNat)
      (source.take (t.count.toNat * s.ring.channels.toNat))) (hconsumer : ConsumerInv s) :
    Inv { s with
      ring := s.ring.storeWriteFrame (writeFrame + t.count)
      producer := .idle
      accepted := s.accepted ++ source.take (t.count.toNat * s.ring.channels.toNat)
      acceptedFrames := s.acceptedFrames + t.count.toNat } := by
  have hlen : (source.take (t.count.toNat * s.ring.channels.toNat)).length =
      t.count.toNat * s.ring.channels.toNat := by
    rw [List.length_take, Nat.min_eq_left hc.source_length]
  have hle : s.returnedFrames * s.ring.channels.toNat ≤ s.accepted.length := by
    rw [h.accepted_length]
    exact Nat.mul_le_mul_right _ h.order
  have hindex : writeFrame + t.count = UInt32.ofNat (s.acceptedFrames + t.count.toNat) := by
    rw [hc.index, ofNat_add_word]
  refine ⟨⟨⟨h.shape.1, h.shape.2, h.shape.3, h.shape.4⟩, h.divides, hindex, h.readIndex,
    h.order.trans (Nat.le_add_right _ _), hc.room, ?_, ?_, ?_⟩, trivial,
    hconsumer.mono h rfl rfl rfl rfl (Nat.le_add_right _ _) ⟨_, rfl⟩⟩
  · simp only [storeWriteFrame, List.length_append, hlen, h.accepted_length, Nat.add_mul]
  · simp only [storeWriteFrame]
    rw [List.take_append_of_le_length hle, h.returned_eq]
  · simp only [storeWriteFrame]
    rw [List.drop_append_of_le_length hle, holds_append, h.unread_length]
    exact ⟨h.unread, hnew⟩

theorem producerStep_inv {s s' : System α} (h : Inv s) (hstep : producerStep s = some s') :
    Inv s' := by
  have hstored := h.stored
  have hproducer := h.producer
  have hconsumer := h.consumer
  unfold producerStep at hstep
  unfold ProducerInv at hproducer
  cases hp : s.producer with
  | idle =>
    simp only [hp] at hstep
    cases hstep
  | called source frames =>
    simp only [hp, Option.some.injEq] at hstep hproducer
    subst hstep
    exact h.setProducer _ ⟨hproducer, hstored.writeIndex⟩
  | loadedWrite source frames writeFrame =>
    simp only [hp, Option.some.injEq] at hstep hproducer
    subst hstep
    obtain ⟨hlen, rfl⟩ := hproducer
    have hclaim := hstored.claim hlen
    rw [hstored.writeIndex] at hclaim
    exact h.setProducer _ ⟨hclaim.1, hclaim.2, hclaim.3, hclaim.4⟩
  | loaded source writeFrame t =>
    simp only [hp, Option.some.injEq] at hstep hproducer
    subst hstep
    exact loaded_inv hstored hproducer hconsumer
  | copiedFirst source writeFrame t =>
    simp only [hp, Option.some.injEq] at hstep hproducer
    subst hstep
    exact copiedFirst_inv hstored hproducer.1 hproducer.2 hconsumer
  | copied source writeFrame t =>
    simp only [hp, Option.some.injEq] at hstep hproducer
    subst hstep
    exact copied_inv hstored hproducer.1 hproducer.2 hconsumer

theorem Granted.copyOutFirst {s : System α} {readFrame : UInt32} {t : Transfer}
    (hg : Granted s readFrame t) (h : Stored s) :
    s.ring.copyOutFirst t =
      slice s.accepted (s.returnedFrames * s.ring.channels.toNat) (s.ring.firstSamples t) := by
  have hle := Nat.mul_le_mul_right s.ring.channels.toNat hg.present
  have hlen := h.unread_length
  rw [Nat.add_mul] at hle
  exact copyOutFirst_eq hg.located h.shape h.unread (by omega)

theorem Granted.copyOut {s : System α} {readFrame : UInt32} {t : Transfer}
    (hg : Granted s readFrame t) (h : Stored s) :
    slice s.accepted (s.returnedFrames * s.ring.channels.toNat) (s.ring.firstSamples t) ++
        s.ring.copyOutRest t =
      slice s.accepted (s.returnedFrames * s.ring.channels.toNat)
        (t.count.toNat * s.ring.channels.toNat) := by
  have hle := Nat.mul_le_mul_right s.ring.channels.toNat hg.present
  have hlen := h.unread_length
  have hroom := h.room
  have hpresent := hg.present
  rw [Nat.add_mul] at hle
  rw [copyOutRest_eq hg.located h.shape (by omega) h.unread (by omega)]
  exact (hg.located.source_split _).symm

theorem consumed_inv {s : System α} {readFrame : UInt32} {t : Transfer} {out : List α}
    (h : Stored s) (hg : Granted s readFrame t)
    (hout : out = slice s.accepted (s.returnedFrames * s.ring.channels.toNat)
      (t.count.toNat * s.ring.channels.toNat)) (hproducer : ProducerInv s) :
    Inv { s with
      ring := s.ring.storeReadFrame (readFrame + t.count)
      consumer := .idle
      returned := s.returned ++ out
      returnedFrames := s.returnedFrames + t.count.toNat } := by
  have hindex : readFrame + t.count = UInt32.ofNat (s.returnedFrames + t.count.toNat) := by
    rw [hg.index, ofNat_add_word]
  have hroom := h.room
  have hlen := h.unread_length
  have hle := Nat.mul_le_mul_right s.ring.channels.toNat hg.present
  rw [Nat.add_mul] at hle
  refine ⟨⟨⟨h.shape.1, h.shape.2, h.shape.3, h.shape.4⟩, h.divides, h.writeIndex, hindex,
    hg.present, ?_, h.accepted_length, ?_, ?_⟩,
    hproducer.mono rfl rfl rfl rfl rfl (Nat.le_add_right _ _), trivial⟩
  · simp only [storeReadFrame]
    omega
  · simp only [storeReadFrame]
    rw [hout, h.returned_eq, Nat.add_mul, List.take_add, slice]
  · simp only [storeReadFrame]
    rw [Nat.add_mul, ← List.drop_drop]
    exact h.unread.drop (by omega)

theorem consumerStep_inv {s s' : System α} (h : Inv s) (hstep : consumerStep s = some s') :
    Inv s' := by
  have hstored := h.stored
  have hconsumer := h.consumer
  unfold consumerStep at hstep
  unfold ConsumerInv at hconsumer
  cases hc : s.consumer with
  | idle =>
    simp only [hc] at hstep
    cases hstep
  | called frames =>
    simp only [hc, Option.some.injEq] at hstep
    subst hstep
    exact h.setConsumer _ hstored.readIndex
  | loadedRead frames readFrame =>
    simp only [hc, Option.some.injEq] at hstep hconsumer
    subst hstep hconsumer
    have hgrant := hstored.grant frames
    rw [hstored.readIndex] at hgrant
    exact h.setConsumer _ ⟨hgrant.1, hgrant.2, hgrant.3⟩
  | loaded readFrame t =>
    simp only [hc, Option.some.injEq] at hstep hconsumer
    subst hstep
    exact h.setConsumer _ ⟨⟨hconsumer.1, hconsumer.2, hconsumer.3⟩,
      hconsumer.copyOutFirst hstored⟩
  | copiedFirst readFrame t out =>
    simp only [hc, Option.some.injEq] at hstep hconsumer
    subst hstep
    obtain ⟨hgrant, rfl⟩ := hconsumer
    exact h.setConsumer _ ⟨⟨hgrant.1, hgrant.2, hgrant.3⟩, hgrant.copyOut hstored⟩
  | copied readFrame t out =>
    simp only [hc, Option.some.injEq] at hstep hconsumer
    subst hstep
    exact consumed_inv hstored hconsumer.1 hconsumer.2 h.producer

theorem step_inv (s : System α) (a : Action α) (s' : System α) (h : Inv s)
    (hstep : step s a = some s') : Inv s' := by
  cases a with
  | write interleaved frames => exact callWrite_inv h hstep
  | producer => exact producerStep_inv h hstep
  | read buffer frames => exact callRead_inv h hstep
  | consumer => exact consumerStep_inv h hstep

theorem slotOf_eq {s : System α} (h : Stored s) (n : ℕ) :
    slotOf s n = n % s.ring.capacityFrames.toNat := toNat_slot h.divides n

theorem slot_ne {c n m : ℕ} (hnm : n < m) (hlap : m < n + c) : n % c ≠ m % c := by
  intro h
  have hdvd := (Nat.modEq_iff_dvd' hnm.le).mp h
  have hle := Nat.le_of_dvd (by omega) hdvd
  omega

theorem slotOf_not_overwritten {s : System α} (h : Inv s) {n : ℕ}
    (hn : s.returnedFrames ≤ n) (hn' : n < s.acceptedFrames) : slotOf s n ∉ overwritten s := by
  have hproducer := h.producer
  have hpos := h.stored.shape.capacity_pos
  rw [slotOf_eq h.stored]
  unfold overwritten
  unfold ProducerInv at hproducer
  cases hp : s.producer with
  | idle | called | loadedWrite | copied => exact Set.notMem_empty _
  | loaded source writeFrame t =>
    simp only [hp] at hproducer
    have hroom := hproducer.room
    have hfirst := hproducer.located.first_eq
    have hlt := Nat.mod_lt s.acceptedFrames hpos
    rintro ⟨h₁, h₂⟩
    rw [hproducer.located.offset_eq] at h₁ h₂
    obtain ⟨j, hj⟩ := Nat.exists_eq_add_of_le h₁
    refine slot_ne (n := n) (m := s.acceptedFrames + j)
      (c := s.ring.capacityFrames.toNat) (by omega) (by omega) ?_
    rw [Nat.add_mod s.acceptedFrames, Nat.mod_eq_of_lt (show j < s.ring.capacityFrames.toNat by omega),
      ← hj, Nat.mod_mod]
  | copiedFirst source writeFrame t =>
    simp only [hp] at hproducer
    obtain ⟨hc, -⟩ := hproducer
    have hroom := hc.room
    have hle := hc.located.first_le
    have hremaining := hc.located.remaining_eq
    intro (hk : n % s.ring.capacityFrames.toNat < t.remainingFrames.toNat)
    have hr : t.remainingFrames ≠ 0 := by
      rintro h₀
      rw [h₀] at hk
      exact Nat.not_lt_zero _ hk
    have hwrap : (s.acceptedFrames + t.firstFrames.toNat) % s.ring.capacityFrames.toNat = 0 := by
      have hz := hc.located.rest_wraps h.stored.shape hr
      rw [position_mod h.stored.shape] at hz
      exact (Nat.mul_eq_zero.mp hz).resolve_right h.stored.shape.channels_pos.ne'
    refine slot_ne (n := n)
      (m := s.acceptedFrames + t.firstFrames.toNat + n % s.ring.capacityFrames.toNat)
      (c := s.ring.capacityFrames.toNat) (by omega) (by omega) ?_
    rw [Nat.add_mod, hwrap, Nat.zero_add, Nat.mod_mod, Nat.mod_mod]

theorem slotOf_holds {s : System α} (h : Stored s) {n : ℕ}
    (hn : s.returnedFrames ≤ n) (hn' : n < s.acceptedFrames) :
    slice s.ring.samples (slotOf s n * s.ring.channels.toNat) s.ring.channels.toNat =
      slice s.accepted (n * s.ring.channels.toNat) s.ring.channels.toNat := by
  have hle := Nat.mul_le_mul_right s.ring.channels.toNat hn
  have hlt := Nat.mul_le_mul_right s.ring.channels.toNat (Nat.succ_le_of_lt hn')
  have hslot := Nat.mul_le_mul_right s.ring.channels.toNat
    (Nat.succ_le_of_lt (Nat.mod_lt n h.shape.capacity_pos))
  have hlen := h.unread_length
  have hacc := h.accepted_length
  rw [Nat.succ_mul] at hlt hslot
  have hdrop := h.unread.drop (n := n * s.ring.channels.toNat -
    s.returnedFrames * s.ring.channels.toNat) (by omega)
  rw [List.drop_drop, Nat.add_sub_cancel' hle] at hdrop
  have hheld := hdrop.take s.ring.channels.toNat
  have hone : ((s.accepted.drop (n * s.ring.channels.toNat)).take s.ring.channels.toNat).length =
      s.ring.channels.toNat := by
    rw [List.length_take, List.length_drop]
    omega
  have heq := hheld.slice_eq (by
    rwa [hone, position_mod h.shape, h.shape.samples_length])
  rwa [hone, position_mod h.shape, ← slotOf_eq h] at heq

/-- Only the producer writes samples, and only those of `overwritten`. -/
theorem step_samples {s s' : System α} {a : Action α} (h : Inv s) (hstep : step s a = some s')
    {k : ℕ} (hk : k ∉ overwritten s) :
    slice s'.ring.samples (k * s.ring.channels.toNat) s.ring.channels.toNat =
      slice s.ring.samples (k * s.ring.channels.toNat) s.ring.channels.toNat := by
  have hproducer := h.producer
  unfold ProducerInv at hproducer
  unfold overwritten at hk
  cases a with
  | write interleaved frames =>
    simp only [step, callWrite] at hstep
    split at hstep
    · cases hstep; rfl
    · split_ifs at hstep <;> cases hstep <;> rfl
    · cases hstep
  | read buffer frames =>
    simp only [step, callRead] at hstep
    split at hstep
    · split_ifs at hstep <;> cases hstep <;> rfl
    · cases hstep
  | consumer =>
    simp only [step, consumerStep] at hstep
    split at hstep <;> cases hstep <;> rfl
  | producer =>
    simp only [step, producerStep] at hstep
    cases hp : s.producer with
    | idle => simp only [hp] at hstep; cases hstep
    | called | loadedWrite | copied => simp only [hp] at hstep; cases hstep; rfl
    | loaded source writeFrame t =>
      simp only [hp, Option.some.injEq] at hstep hproducer hk
      subst hstep
      have hlen := hproducer.located.source_first hproducer.source_length
      have hfit := hproducer.located.first_fits h.stored.shape
      rw [← hproducer.located.offset_samples h.stored.shape] at hfit
      apply slice_splice_disjoint
      · rwa [hlen]
      · rw [hlen, offsetSamples, firstSamples, ← Nat.add_mul, ← Nat.succ_mul]
        simp only [Set.mem_ofPred_eq, not_and_or, not_le, not_lt] at hk
        exact hk.imp (Nat.mul_le_mul_right _) (Nat.mul_le_mul_right _)
    | copiedFirst source writeFrame t =>
      simp only [hp, Option.some.injEq] at hstep hproducer hk
      subst hstep
      obtain ⟨hc, -⟩ := hproducer
      have hlen := hc.located.source_rest hc.source_length
      have hfit := hc.located.rest_fits h.stored.shape (hc.count_le h.stored)
      simp only [copyInRest]
      split_ifs
      · apply slice_splice_disjoint
        · rwa [hlen, Nat.zero_add]
        · right
          rw [hlen, Nat.zero_add]
          exact Nat.mul_le_mul_right _ (not_lt.mp hk)
      · rfl

/-- The ring is a lossless bounded FIFO in every state of every interleaving
of its producer and consumer, however often the indices have wrapped. -/
theorem interleaving_lossless [Zero α] {capacityFrames channels : UInt32}
    {ring : AudioOutputRing α} (hc : construct capacityFrames channels = .ok ring)
    (hd : capacityFrames.toNat ∣ 2 ^ 32) {actions : List (Action α)} {s : System α}
    (hr : Run step (initial ring) actions s) :
    s.returned <+: s.accepted ∧
    s.accepted.length = s.acceptedFrames * channels.toNat ∧
    s.returned.length = s.returnedFrames * channels.toNat ∧
    s.acceptedFrames ≤ s.returnedFrames + capacityFrames.toNat ∧
    (∀ n, s.returnedFrames ≤ n → n < s.acceptedFrames →
      slice s.ring.samples (slotOf s n * channels.toNat) channels.toNat =
        slice s.accepted (n * channels.toNat) channels.toNat ∧
      slotOf s n ∉ overwritten s) ∧
    ∀ a s', step s a = some s' → ∀ k ∉ overwritten s,
      slice s'.ring.samples (k * channels.toNat) channels.toNat =
        slice s.ring.samples (k * channels.toNat) channels.toNat := by
  obtain ⟨hshape, rfl, rfl, hw, hr₀, -⟩ := construct_ok hc
  have hinv : Inv s ∧ s.ring.capacityFrames = ring.capacityFrames ∧
      s.ring.channels = ring.channels := by
    refine hr.invariant (I := fun s ↦ Inv s ∧ s.ring.capacityFrames = ring.capacityFrames ∧
      s.ring.channels = ring.channels) ⟨initial_inv hshape hd hw hr₀, rfl, rfl⟩ ?_
    rintro s a s' ⟨h, hcap, hch⟩ hstep
    exact ⟨step_inv s a s' h hstep, (step_dimensions hstep).1.trans hcap,
      (step_dimensions hstep).2.trans hch⟩
  obtain ⟨h, hcap, hch⟩ := hinv
  rw [← hcap, ← hch]
  refine ⟨?_, h.stored.accepted_length, ?_, h.stored.room, fun n hn hn' ↦
    ⟨slotOf_holds h.stored hn hn', slotOf_not_overwritten h hn hn'⟩, fun a s' hstep k hk ↦
      step_samples h hstep hk⟩
  · rw [h.stored.returned_eq]
    exact List.take_prefix _ _
  · have hle := Nat.mul_le_mul_right s.ring.channels.toNat h.stored.order
    rw [h.stored.returned_eq, List.length_take, h.stored.accepted_length, Nat.min_eq_left hle]

theorem interleaving_lossless_partial_read :
    ∃ ring : AudioOutputRing ℚ, construct 2 1 = .ok ring ∧
    ∃ s, Run step (initial ring) [.write (some [7, 8]) 2, .read true 1, .producer, .producer,
        .producer, .consumer, .producer, .producer, .consumer, .consumer, .consumer, .consumer] s ∧
      s.accepted = [7, 8] ∧ s.returned = [7] ∧ s.returned <+: s.accepted := by
  have hrun : ∃ s, Run step (initial ⟨2, 1, [(0 : ℚ), 0], 0, 0, 0⟩) [.write (some [7, 8]) 2,
      .read true 1, .producer, .producer, .producer, .consumer, .producer, .producer, .consumer,
      .consumer, .consumer, .consumer] s ∧ s.accepted = [7, 8] ∧ s.returned = [7] :=
    ⟨_, .of_foldlM rfl, rfl, rfl⟩
  obtain ⟨s, hs, haccepted, hreturned⟩ := hrun
  exact ⟨_, rfl, s, hs, haccepted, hreturned,
    (interleaving_lossless (show construct 2 1 = .ok _ from rfl) (by decide) hs).1⟩

end NumarkNS6.AudioOut.RingInterleaving
