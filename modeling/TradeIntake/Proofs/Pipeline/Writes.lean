import TradeIntake.Proofs.Pipeline.AnyStore
import TradeIntake.Proofs.Pipeline.Verdict

/-!
# What the store is told

A journal of the requests that a store is sent (`Store.journaled`) shows what a message has it keep:
one submission when the message has a document, its sender wants the check, checks are switched on
and the message is told to be no duplicate, and nothing otherwise. Such messages are *registered*.
The store may fail or not answer; it is then still told, and a lookup without an answer finds no
duplicate. That a lookup leaves the store as it is (`Store.LookupsLeave`) is asked only for what is
said of the state of the store.

* **`process_journaled`**: a journal changes nothing, and it shows the requests of a message.
* **`filterMap_requests`**: what a message tells the store.
* **`stateAfter_registered`**: a run leaves in the store what its registered messages alone leave.
* **`store_keeps_registered`**: all of it, for messages and for runs.
-/

namespace TradeIntake

variable {σ : Type}

/-! ## Journals -/

/-- A request that a store is sent. -/
inductive StoreRequest where
  | find (q : Lookup)
  | remember (x : Sighting)
  deriving DecidableEq

/-- What the store is asked to keep. -/
def StoreRequest.sighting? : StoreRequest → Option Sighting
  | .find _ => none
  | .remember x => some x

namespace Store

/-- The store with a journal of the requests that it is sent, the first one first. -/
def journaled (s : Store σ) : Store (σ × List StoreRequest) where
  latency := s.latency
  find patience q st :=
    let (reply, st') := s.find patience q st.1
    (reply, st', st.2 ++ [.find q])
  remember patience x st :=
    let (reply, st') := s.remember patience x st.1
    (reply, st', st.2 ++ [.remember x])

/-- Lookups leave the store as it is. -/
def LookupsLeave (s : Store σ) : Prop :=
  ∀ patience q st, (s.find patience q st).2 = st

theorem lookupsLeave_memory : Store.memory.LookupsLeave := fun _ _ _ => rfl

theorem lookupsLeave_never : (never : Store σ).LookupsLeave := fun _ _ _ => rfl

theorem lookupsLeave_unavailable (reason : String) :
    (unavailable reason : Store σ).LookupsLeave := fun _ _ _ => rfl

theorem lookupsLeave_delayed {s : Store σ} (h : s.LookupsLeave) (ms : Nat) :
    (s.delayed ms).LookupsLeave := by
  intro patience q st
  rw [find_delayed]
  split
  · rfl
  · exact h _ q st

end Store

namespace DuplicateChecker

variable (c : DuplicateChecker σ) (messageId fingerprint : String)
  (lookedUpAt checkedAt : Timestamp) (st : σ) (js : List StoreRequest)

/-- The checker whose store keeps a journal. -/
def journaled : DuplicateChecker (σ × List StoreRequest) := ⟨c.settings, c.store.journaled⟩

/-- What a check asks of the store. -/
def lookups : List StoreRequest :=
  if c.settings.enabled then
    [.find ⟨messageId, fingerprint, windowStart lookedUpAt c.settings.windowSecs⟩]
  else []

/-- What the store is told of a submission. -/
def notices (s : Submission) (recordedAt : Timestamp) : List StoreRequest :=
  if c.settings.enabled then [.remember ⟨s, windowStart recordedAt c.settings.windowSecs⟩] else []

/-- The store once it was asked to keep that, one submission after the other. -/
def told (xs : List Sighting) : σ :=
  xs.foldl (fun st x => (c.store.remember c.settings.lookupTimeoutMs x st).2) st

theorem told_append (xs ys : List Sighting) : c.told st (xs ++ ys) = c.told (c.told st xs) ys :=
  List.foldl_append

/-- A check has the store keep nothing. -/
theorem filterMap_lookups :
    (c.lookups messageId fingerprint lookedUpAt).filterMap StoreRequest.sighting? = [] := by
  unfold lookups
  split <;> rfl

theorem snd_check (hs : c.store.LookupsLeave) :
    (c.check messageId fingerprint lookedUpAt checkedAt st).2 = st := by
  unfold check
  split
  · exact hs ..
  · rfl

theorem remember_eq_told (s : Submission) (recordedAt : Timestamp) :
    c.remember s recordedAt st =
      c.told st ((c.notices s recordedAt).filterMap StoreRequest.sighting?) := by
  unfold remember notices
  split <;> rfl

theorem check_journaled :
    c.journaled.check messageId fingerprint lookedUpAt checkedAt (st, js) =
      let (check, st') := c.check messageId fingerprint lookedUpAt checkedAt st
      (check, st', js ++ c.lookups messageId fingerprint lookedUpAt) := by
  unfold check lookups
  change (if c.settings.enabled then _ else _) = _
  split
  · rfl
  · rw [List.append_nil]

theorem remember_journaled (s : Submission) (recordedAt : Timestamp) :
    c.journaled.remember s recordedAt (st, js) =
      (c.remember s recordedAt st, js ++ c.notices s recordedAt) := by
  unfold remember notices
  change (if c.settings.enabled then _ else _) = _
  split
  · rfl
  · rw [List.append_nil]

end DuplicateChecker

namespace Pipeline

variable (p : Pipeline σ) (m : Message) (call : Call) (st : σ) (js : List StoreRequest)

/-- The pipeline whose store keeps a journal. -/
def journaled : Pipeline (σ × List StoreRequest) := ⟨p.settings, p.store.journaled⟩

theorem lookUp_journaled (x : InFlight) :
    p.journaled.lookUp x (st, js) =
      let (out, st') := p.lookUp x st
      (out, st', js ++ (x.wanted?.map fun fp =>
        p.checker.lookups x.message.messageId fp x.call.clock.lookedUp).getD []) := by
  unfold lookUp
  cases x.wanted? with
  | none => simp
  | some fp =>
    dsimp only
    rw [show p.journaled.checker = p.checker.journaled from rfl,
      DuplicateChecker.check_journaled]
    rfl

theorem complete_journaled (x : InFlight) :
    p.journaled.complete x (st, js) =
      let (out, st') := p.complete x st
      (out, st', js ++ (x.submission?.map fun s =>
        p.checker.notices s x.call.clock.recorded).getD []) := by
  unfold complete
  cases x.submission? with
  | none => simp
  | some s =>
    dsimp only
    rw [show p.journaled.checker = p.checker.journaled from rfl,
      DuplicateChecker.remember_journaled]
    rfl

/-! ## What one message asks and tells -/

theorem receivedAt_process :
    (p.process m call st).1.1.result.receivedAt = call.clock.received :=
  congrArg (·.result.receivedAt) (process_eq_retold p.settings p.store p.store m call call st st)

theorem isDuplicate_process_of_checked {fp : String}
    (h : m.checkable? p.settings.ingest = some fp) :
    (p.process m call st).1.1.result.isDuplicate =
      (p.checker.check m.messageId fp call.clock.lookedUp call.clock.checked st).1.isDuplicate := by
  unfold Result.isDuplicate
  rw [duplicateCheck?_process, check?, h]
  rfl

/-- What a message leaves to be told once it is looked up. -/
theorem submission?_lookUp :
    (p.lookUp (p.receive m call).1 st).1.1.submission? =
      if (p.process m call st).1.1.result.isDuplicate then none
      else (m.checkable? p.settings.ingest).map fun fp =>
        ⟨m.messageId, fp, call.clock.received⟩ := by
  have hw : (p.lookUp (p.receive m call).1 st).1.1.wanted? = m.checkable? p.settings.ingest := by
    rw [lookUp_receive, ← p.wanted?_receive m call]
    rfl
  cases h : m.checkable? p.settings.ingest with
  | none =>
    unfold InFlight.submission?
    rw [hw.trans h]
    simp
  | some fp =>
    obtain ⟨bytes, d, hd, -, -⟩ := Message.checkable?_eq_some_iff.mp h
    have hprocessed := (p.process_of_ok m call st hd).processingStatus
    have hcheck := p.duplicateCheck?_process m call st
    rw [check?, h] at hcheck
    rw [fst_process] at hprocessed hcheck
    rw [submission?_eq (hw.trans h) hcheck hprocessed, p.isDuplicate_process_of_checked m call st h,
      lookUp_receive]
    rfl

/-- The requests that the store is sent while the message is processed. -/
def requests : List StoreRequest :=
  match m.checkable? p.settings.ingest with
  | none => []
  | some fp =>
    p.checker.lookups m.messageId fp call.clock.lookedUp ++
      if (p.process m call st).1.1.result.isDuplicate then []
      else p.checker.notices ⟨m.messageId, fp, call.clock.received⟩ call.clock.recorded

theorem process_journaled :
    p.journaled.process m call (st, js) =
      let (out, st') := p.process m call st
      (out, st', js ++ p.requests m call st) := by
  have hreceive : p.journaled.receive m call = p.receive m call := rfl
  rw [process_eq, process_eq, hreceive, lookUp_journaled]
  dsimp only
  rw [complete_journaled, submission?_lookUp, wanted?_receive, List.append_assoc]
  unfold requests
  rw [lookUp_receive]
  cases m.checkable? p.settings.ingest with
  | none => simp
  | some fp => cases (p.process m call st).1.1.result.isDuplicate <;> rfl

/-- **A message is registered**: it has a document, its sender wants the check, checks are switched
on, and it is told to be no duplicate. -/
structure Registers : Prop where
  decoded : ∃ x, m.decode p.settings.ingest = .ok x
  wanted : m.flags.skipDuplicateCheck = false
  enabled : p.settings.dedup.enabled = true
  fresh : (p.process m call st).1.1.result.isDuplicate = false

/-- What the store is to keep of the message. -/
def notice? : Option Sighting :=
  (m.checkable? p.settings.ingest).map fun fp =>
    ⟨⟨m.messageId, fp, call.clock.received⟩,
      windowStart call.clock.recorded p.settings.dedup.windowSecs⟩

variable {p m call st}

theorem registers_iff :
    p.Registers m call st ↔ (m.checkable? p.settings.ingest).isSome ∧
      p.settings.dedup.enabled = true ∧ (p.process m call st).1.1.result.isDuplicate = false := by
  rw [Message.isSome_checkable?]
  exact ⟨fun h => ⟨⟨h.decoded, h.wanted⟩, h.enabled, h.fresh⟩,
    fun h => ⟨h.1.1, h.1.2, h.2.1, h.2.2⟩⟩

instance : Decidable (p.Registers m call st) :=
  decidable_of_iff _ registers_iff.symm

/-- A message is a duplicate when the store answers its lookup with an earlier submission. A lookup
that fails or is not answered in time does not count. -/
theorem isDuplicate_process_iff :
    (p.process m call st).1.1.result.isDuplicate = true ↔
      ∃ fp, m.checkable? p.settings.ingest = some fp ∧ p.settings.dedup.enabled = true ∧
        ∃ s, (p.store.find p.settings.dedup.lookupTimeoutMs
          ⟨m.messageId, fp, windowStart call.clock.lookedUp p.settings.dedup.windowSecs⟩ st).1 =
            .answered (some s) := by
  unfold Result.isDuplicate
  rw [duplicateCheck?_process, check?]
  cases m.checkable? p.settings.ingest with
  | none => simp
  | some fp =>
    have hr := p.checker.reflects_check m.messageId fp call.clock.lookedUp call.clock.checked st
    have hfound : (∃ id, (p.checker.check m.messageId fp call.clock.lookedUp call.clock.checked
        st).1.originalMessageId? = some id) ↔ ∃ s, p.checker.reply? m.messageId fp
          call.clock.lookedUp st = some (.answered (some s)) := by
      simp only [hr.original_iff]
      constructor
      · rintro ⟨_, s, h, -⟩
        exact ⟨s, h⟩
      · rintro ⟨s, h⟩
        exact ⟨_, s, h, rfl⟩
    simp only [Option.map_some, Option.some.injEq, exists_eq_left', Option.any_some]
    rw [hr.isDuplicate_iff, Option.isSome_iff_exists, hfound]
    unfold DuplicateChecker.reply?
    change (∃ s, (if p.settings.dedup.enabled then some _ else none) = _) ↔ _
    cases p.settings.dedup.enabled with
    | false => simp
    | true =>
      simp only [if_true, Option.some.injEq, true_and]
      rfl

theorem requests_of_unchecked (h : m.checkable? p.settings.ingest = none) :
    p.requests m call st = [] := by
  unfold requests
  rw [h]

theorem requests_of_disabled (h : p.settings.dedup.enabled = false) :
    p.requests m call st = [] := by
  have hc : p.checker.settings.enabled = false := h
  unfold requests DuplicateChecker.lookups DuplicateChecker.notices
  cases m.checkable? p.settings.ingest <;> simp [hc]

theorem requests_of_checked {fp : String} (h : m.checkable? p.settings.ingest = some fp)
    (he : p.settings.dedup.enabled = true) :
    p.requests m call st =
      .find ⟨m.messageId, fp, windowStart call.clock.lookedUp p.settings.dedup.windowSecs⟩ ::
        if (p.process m call st).1.1.result.isDuplicate then []
        else [.remember ⟨⟨m.messageId, fp, call.clock.received⟩,
          windowStart call.clock.recorded p.settings.dedup.windowSecs⟩] := by
  have hc : p.checker.settings.enabled = true := he
  unfold requests DuplicateChecker.lookups DuplicateChecker.notices
  rw [h]
  simp only [hc, if_true]
  rfl

/-- **A registered message** asks once, and then has the store remember it. -/
theorem requests_of_registers {bytes : List UInt8} {d : Document}
    (hd : m.decode p.settings.ingest = .ok (bytes, d)) (h : p.Registers m call st) :
    p.requests m call st =
      [.find ⟨m.messageId, fingerprint bytes,
          windowStart call.clock.lookedUp p.settings.dedup.windowSecs⟩,
        .remember ⟨⟨m.messageId, fingerprint bytes,
            (p.process m call st).1.1.result.receivedAt⟩,
          windowStart call.clock.recorded p.settings.dedup.windowSecs⟩] := by
  have hc := Message.checkable?_eq_some_iff.mpr ⟨bytes, d, hd, h.wanted, rfl⟩
  rw [requests_of_checked hc h.enabled, h.fresh, receivedAt_process]
  rfl

/-- **What a message tells the store**: a registered one is to be kept, of any other nothing. -/
theorem filterMap_requests :
    (p.requests m call st).filterMap StoreRequest.sighting? =
      if p.Registers m call st then (p.notice? m call).toList else [] := by
  cases he : p.settings.dedup.enabled with
  | false =>
    rw [requests_of_disabled he, if_neg fun h => by simp [h.enabled] at he]
    rfl
  | true =>
    cases hc : m.checkable? p.settings.ingest with
    | none =>
      rw [requests_of_unchecked hc, if_neg fun h => by simp [registers_iff, hc] at h]
      rfl
    | some fp =>
      rw [requests_of_checked hc he]
      simp only [registers_iff, notice?, hc, he]
      cases (p.process m call st).1.1.result.isDuplicate <;> rfl

/-! ## What is left in the store -/

/-- **A message leaves in the store what it tells it.** -/
theorem snd_process_eq_told (hs : p.store.LookupsLeave) :
    (p.process m call st).2 =
      p.checker.told st ((p.requests m call st).filterMap StoreRequest.sighting?) := by
  cases hc : m.checkable? p.settings.ingest with
  | none =>
    rw [requests_of_unchecked hc]
    exact p.snd_process_of_unchecked m call st hc
  | some fp =>
    rw [p.snd_process_of_checked m call st hc, ← p.isDuplicate_process_of_checked m call st hc,
      p.checker.snd_check _ _ _ _ _ hs]
    unfold requests
    rw [hc]
    dsimp only
    rw [List.filterMap_append, DuplicateChecker.filterMap_lookups, List.nil_append]
    split
    · rfl
    · exact p.checker.remember_eq_told ..

/-- **A message that is not registered leaves the store as it is.** -/
theorem snd_process_of_not_registers (hs : p.store.LookupsLeave) (h : ¬ p.Registers m call st) :
    (p.process m call st).2 = st := by
  rw [snd_process_eq_told hs, filterMap_requests, if_neg h]
  rfl

/-! ## Runs -/

variable (p)

/-- The calls of a run whose messages are registered. -/
def registered : List (Message × Call) → σ → List (Message × Call)
  | [], _ => []
  | c :: calls, st =>
    let later := registered calls (p.process c.1 c.2 st).2
    if p.Registers c.1 c.2 st then c :: later else later

/-- What the store is asked to keep of these messages. -/
def notices (calls : List (Message × Call)) : List Sighting :=
  calls.filterMap fun c => p.notice? c.1 c.2

theorem notices_registered_cons (c : Message × Call) (calls : List (Message × Call)) (st : σ) :
    p.notices (p.registered (c :: calls) st) =
      (p.requests c.1 c.2 st).filterMap StoreRequest.sighting? ++
        p.notices (p.registered calls (p.process c.1 c.2 st).2) := by
  rw [filterMap_requests, registered]
  split
  · unfold notices
    rw [List.filterMap_cons]
    cases p.notice? c.1 c.2 <;> rfl
  · rfl

theorem stateAfter_cons (c : Message × Call) (calls : List (Message × Call)) (st : σ) :
    p.stateAfter (c :: calls) st = p.stateAfter calls (p.process c.1 c.2 st).2 := rfl

/-- **What a run tells the store**: its registered messages are to be kept, in their order. -/
theorem stateAfter_journaled (calls : List (Message × Call)) (st : σ) (js : List StoreRequest) :
    ∃ js', p.journaled.stateAfter calls (st, js) = (p.stateAfter calls st, js ++ js') ∧
      js'.filterMap StoreRequest.sighting? = p.notices (p.registered calls st) := by
  induction calls generalizing st js with
  | nil => exact ⟨[], by rw [List.append_nil]; rfl, rfl⟩
  | cons c calls ih =>
    obtain ⟨js', hstate, htold⟩ := ih (p.process c.1 c.2 st).2 (js ++ p.requests c.1 c.2 st)
    refine ⟨p.requests c.1 c.2 st ++ js', ?_, ?_⟩
    · rw [stateAfter_cons, process_journaled, stateAfter_cons, ← List.append_assoc]
      exact hstate
    · rw [List.filterMap_append, notices_registered_cons, htold]

variable {p} (hs : p.store.LookupsLeave)
include hs

/-- **A run leaves in the store what its registered messages tell it.** -/
theorem stateAfter_eq_told (calls : List (Message × Call)) (st : σ) :
    p.stateAfter calls st = p.checker.told st (p.notices (p.registered calls st)) := by
  induction calls generalizing st with
  | nil => rfl
  | cons c calls ih =>
    rw [stateAfter_cons, ih, notices_registered_cons, DuplicateChecker.told_append,
      ← snd_process_eq_told hs]

/-- **The other messages of a run might as well not have come.** -/
theorem stateAfter_registered (calls : List (Message × Call)) (st : σ) :
    p.stateAfter (p.registered calls st) st = p.stateAfter calls st := by
  induction calls generalizing st with
  | nil => rfl
  | cons c calls ih =>
    rw [registered]
    split
    · rw [stateAfter_cons, ih, stateAfter_cons]
    · rename_i h
      rw [stateAfter_cons, snd_process_of_not_registers hs h]
      exact ih st

omit hs

/-- Nothing is asked of the store about a message that goes unchecked. -/
theorem silent_of_unchecked {m : Message} {call : Call} {st : σ}
    (h : (∃ e, m.decode p.settings.ingest = .error e) ∨ m.flags.skipDuplicateCheck = true ∨
      p.settings.dedup.enabled = false) :
    p.requests m call st = [] ∧ (p.process m call st).2 = st := by
  rcases hc : m.checkable? p.settings.ingest with _ | fp
  · exact ⟨requests_of_unchecked hc, p.snd_process_of_unchecked m call st hc⟩
  · obtain ⟨bytes, d, hd, hskip, -⟩ := Message.checkable?_eq_some_iff.mp hc
    rcases h with ⟨e, he⟩ | hs | hoff
    · cases hd.symm.trans he
    · cases hskip.symm.trans hs
    · refine ⟨requests_of_disabled hoff, ?_⟩
      have hc' : p.checker.settings.enabled = false := hoff
      rw [p.snd_process_of_checked m call st hc]
      simp [DuplicateChecker.check, DuplicateChecker.remember, hc']

/-- **The store keeps the registered messages**, over any store and in any state of it. A journal
changes nothing. A registered message asks once and has the store remember it once, by its id, the
fingerprint of its content and the time of receipt that its sender is told. No other message has the
store remember anything, and one that goes unchecked asks nothing either. A message is a duplicate
only if the store answers with an earlier submission. So what a run has the store remember are its
registered messages, in order, and when lookups leave the store as it is, that is what it comes to:
without the other messages it would be the same. -/
theorem store_keeps_registered (p : Pipeline σ) :
    (∀ m call st js, p.journaled.process m call (st, js) =
      ((p.process m call st).1, (p.process m call st).2, js ++ p.requests m call st)) ∧
    (∀ m call st bytes d, m.decode p.settings.ingest = .ok (bytes, d) → p.Registers m call st →
      p.requests m call st =
        [.find ⟨m.messageId, fingerprint bytes,
            windowStart call.clock.lookedUp p.settings.dedup.windowSecs⟩,
          .remember ⟨⟨m.messageId, fingerprint bytes,
              (p.process m call st).1.1.result.receivedAt⟩,
            windowStart call.clock.recorded p.settings.dedup.windowSecs⟩]) ∧
    (∀ m call st, ¬ p.Registers m call st →
      (∀ x, .remember x ∉ p.requests m call st) ∧
        (p.store.LookupsLeave → (p.process m call st).2 = st)) ∧
    (∀ m call st, (∃ e, m.decode p.settings.ingest = .error e) ∨
      m.flags.skipDuplicateCheck = true ∨ p.settings.dedup.enabled = false →
        p.requests m call st = [] ∧ (p.process m call st).2 = st) ∧
    (∀ m call st, (p.process m call st).1.1.result.isDuplicate = true ↔
      ∃ fp, m.checkable? p.settings.ingest = some fp ∧ p.settings.dedup.enabled = true ∧
        ∃ s, (p.store.find p.settings.dedup.lookupTimeoutMs
          ⟨m.messageId, fp, windowStart call.clock.lookedUp p.settings.dedup.windowSecs⟩ st).1 =
            .answered (some s)) ∧
    (∀ calls st js, ∃ js', p.journaled.stateAfter calls (st, js) =
      (p.stateAfter calls st, js ++ js') ∧
        js'.filterMap StoreRequest.sighting? = p.notices (p.registered calls st)) ∧
    (p.store.LookupsLeave → ∀ calls st,
      p.stateAfter calls st = p.checker.told st (p.notices (p.registered calls st)) ∧
        p.stateAfter (p.registered calls st) st = p.stateAfter calls st) := by
  refine ⟨p.process_journaled, fun m call st bytes d => requests_of_registers, fun m call st h =>
    ⟨fun x hx => ?_, fun hs => snd_process_of_not_registers hs h⟩, fun m call st =>
      silent_of_unchecked, fun m call st => isDuplicate_process_iff, p.stateAfter_journaled,
    fun hs calls st => ⟨stateAfter_eq_told hs calls st, stateAfter_registered hs calls st⟩⟩
  have hmem := List.mem_filterMap.mpr ⟨_, hx, show StoreRequest.sighting? _ = some x from rfl⟩
  rw [filterMap_requests, if_neg h] at hmem
  cases hmem

/-- Of a document that comes again within the window and then after it, the store is told twice. -/
theorem registered_resubmissions :
    tenSeconds.registered resubmissions .empty =
      [resubmission "m1" 0, resubmission "m3" 20] ∧
    tenSeconds.stateAfter [resubmission "m1" 0, resubmission "m3" 20] .empty =
      tenSeconds.stateAfter resubmissions .empty := by
  have hr : tenSeconds.registered resubmissions .empty =
      [resubmission "m1" 0, resubmission "m3" 20] := by decide +kernel
  refine ⟨hr, ?_⟩
  obtain ⟨-, -, -, -, -, -, h⟩ := store_keeps_registered tenSeconds
  have hstate := (h (Store.lookupsLeave_delayed Store.lookupsLeave_memory 5) resubmissions .empty).2
  rwa [hr] at hstate

end Pipeline
end TradeIntake
