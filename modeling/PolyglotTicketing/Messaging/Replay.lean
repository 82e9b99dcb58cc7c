import PolyglotTicketing.Messaging.DeadLetter

/-!
# Replaying what was parked

Parking a message adds headers to a copy of its own, and replaying it takes headers away from a
copy of those. `replay_park` shows that the message comes back: with its subject, its payload and
all of its headers except `Nats-Msg-Id`. That name is compared without regard to letter case, and a
header that differs from it in nothing else is lost (`not_restored_lowercase`).
-/

namespace Messaging

open Contracts Relational

section Copy

variable {copy : Header → Entry → Header} {skip : String → Bool}

/-- Copying an entry gives its name its values, if there were none before. -/
def Copies (copy : Header → Entry → Header) : Prop :=
  ∀ header entry k, Header.values header entry.name = [] →
    (copy header entry).values k = if k = entry.name then entry.values else header.values k

theorem copies_assignEntry : Copies assignEntry :=
  fun header entry k _ => header.values_upsert entry.name entry.values k

/-- Values are appended in order. -/
theorem values_appendEntry (header : Header) (name : String) (values : List String) (k : String) :
    (appendEntry header ⟨name, values⟩).values k =
      if k = name then header.values name ++ values else header.values k := by
  induction values generalizing header with
  | nil =>
    split
    next hk => rw [hk, List.append_nil, appendEntry, List.foldl_nil]
    next => rfl
  | cons value values ih =>
    -- One value after the other goes to the end.
    have hstep : appendEntry header ⟨name, value :: values⟩ =
        appendEntry (header.append name value) ⟨name, values⟩ := rfl
    rw [hstep, ih, Header.values_append, if_pos rfl, Header.values_append]
    split
    · rw [List.append_assoc, List.singleton_append]
    · rfl

theorem copies_appendEntry : Copies appendEntry := by
  intro header entry k hnone
  rw [show entry = ⟨entry.name, entry.values⟩ from rfl, values_appendEntry, hnone, List.nil_append]

/-- Copy entries into a header, unless their name is skipped. -/
def copyEntries (copy : Header → Entry → Header) (skip : String → Bool) (header : Header)
    (entries : List Entry) : Header :=
  entries.foldl (fun header entry => if skip entry.name then header else copy header entry) header

/-- The loop changes only the object at the end of the heap. -/
theorem copyInto_eq (heap : Heap) (header : Header) (entries : List Entry) :
    copyInto copy skip (heap ++ [header]) heap.length entries =
      heap ++ [copyEntries copy skip header entries] := by
  induction entries generalizing header with
  | nil => rfl
  | cons entry entries ih =>
    rw [copyInto, List.foldl_cons, ← copyInto, copyEntries, List.foldl_cons, ← copyEntries]
    by_cases hskip : skip entry.name = true
    · rw [if_pos hskip, if_pos hskip, ih]
    · rw [if_neg hskip, if_neg hskip, Heap.modify_length, ih]

/-- The calls of `Set` change only the object at the end of the heap. -/
theorem setAll_eq (heap : Heap) (header : Header) (fields : List (String × String)) :
    setAll (heap ++ [header]) heap.length fields = heap ++ [header.setAll fields] := by
  induction fields generalizing header with
  | nil => rfl
  | cons field fields ih =>
    rw [setAll, List.foldl_cons, ← setAll, Heap.modify_length, ih, Header.setAll, Header.setAll,
      List.foldl_cons]

/-- What entries with distinct names are copied to. -/
private theorem values_copyEntries_aux (hcopy : Copies copy) {entries : List Entry}
    (hnodup : (entries.map Entry.name).Nodup) (header : Header)
    (hnew : ∀ entry ∈ entries, header.values entry.name = []) (k : String) :
    (copyEntries copy skip header entries).values k =
      ((entries.find? fun entry => decide (entry.name = k ∧ skip k = false)).map Entry.values).getD
        (header.values k) := by
  induction entries generalizing header with
  | nil => rfl
  | cons entry entries ih =>
    rw [List.map_cons, List.nodup_cons] at hnodup
    rw [copyEntries, List.foldl_cons, ← copyEntries]
    -- The names of the other entries are different, so that each of them still finds its name
    -- without values.
    have hne : ∀ x ∈ entries, x.name ≠ entry.name := by
      intro x hx heq
      exact hnodup.1 (heq ▸ List.mem_map_of_mem hx)
    by_cases hskip : skip entry.name = true
    · rw [if_pos hskip, ih hnodup.2 header fun x hx => hnew x (List.mem_cons_of_mem _ hx),
        List.find?_cons_of_neg]
      simp only [decide_eq_true_eq, not_and, Bool.not_eq_false]
      rintro rfl
      exact hskip
    · have hvalues := fun k => hcopy header entry k (hnew entry List.mem_cons_self)
      rw [if_neg hskip, ih hnodup.2 _ fun x hx => ?_]
      · by_cases hk : entry.name = k
        · subst hk
          -- The first entry is the only one with its name.
          have hrest : entries.find? (fun x =>
              decide (x.name = entry.name ∧ skip entry.name = false)) = none := by
            rw [List.find?_eq_none]
            intro x hx
            simp [hne x hx]
          rw [hrest, List.find?_cons_of_pos (by simp [hskip]), Option.map_none, Option.getD_none,
            hvalues, if_pos rfl]
          rfl
        · rw [List.find?_cons_of_neg (by simp [hk]), hvalues, if_neg (Ne.symm hk)]
      · rw [hvalues, if_neg (hne x hx)]
        exact hnew x (List.mem_cons_of_mem _ hx)

/-- A copy of a header has the same values under every name that is not skipped. -/
theorem values_copyEntries (hcopy : Copies copy) (header : Header) (k : String) :
    (copyEntries copy skip .empty header.rows).values k =
      if skip k then [] else header.values k := by
  rw [values_copyEntries_aux hcopy header.nodup .empty fun _ _ => rfl]
  split
  next hskip =>
    rw [List.find?_eq_none.mpr (by simp [hskip])]
    rfl
  next hskip =>
    have hskip' : skip k = false := by simpa using hskip
    rw [Header.values_empty, Header.values, Table.find?]
    simp only [hskip', and_true, key_entry]

end Copy

/-- How a service recognises `Nats-Msg-Id`. -/
def Service.IsMsgID : Service → String → Prop
  | .expiration, name => LowerCaseIs name "nats-msg-id"
  | _, name => EqualFold name natsMsgID

instance (s : Service) (name : String) : Decidable (s.IsMsgID name) := by
  cases s <;> exact inferInstanceAs (Decidable (_ = _))

/-- The names that the queue of a service has for itself. -/
def Service.Reserved (s : Service) (name : String) : Prop :=
  HasStart name s.queue.headerStart ∨ ∃ start ∈ s.queue.legacyStart, HasStart name start

instance (s : Service) (name : String) : Decidable (s.Reserved name) :=
  inferInstanceAs (Decidable (_ ∨ _))

/-- A replay leaves out the names of the queue and `Nats-Msg-Id`. -/
theorem Service.skips_iff (s : Service) (name : String) :
    s.skips name = true ↔ s.Reserved name ∨ s.IsMsgID name := by
  cases s with
  | expiration =>
    simp only [Service.skips, expirationSkips, Service.Reserved, Service.IsMsgID, Service.queue,
      decide_eq_true_eq]
    simp [expirationQueue]
  | _ => simp [Service.skips, Queue.skips, Service.Reserved, Service.IsMsgID, or_assoc]

theorem Service.isMsgID_natsMsgID (s : Service) : s.IsMsgID natsMsgID := by
  cases s <;> decide

section Fields

variable (s : Service) (event : DeadLetter) (parkedAt : String)

/-- The headers of a parked message have different names. -/
theorem Service.nodup_fields : ((s.queue.fields event parkedAt).map Prod.fst).Nodup := by
  simp only [Queue.fields, List.map_cons, List.map_nil]
  cases s <;> decide

/-- The names of these headers belong to the queue, except for `Nats-Msg-Id`. -/
theorem Service.skips_of_mem_fields {name : String}
    (h : name ∈ (s.queue.fields event parkedAt).map Prod.fst) : s.skips name = true := by
  rw [s.skips_iff]
  simp only [Queue.fields, List.map_cons, List.map_nil, List.mem_cons, List.not_mem_nil,
    or_false] at h
  rcases h with rfl | rfl | rfl | rfl | rfl | rfl | rfl | rfl | rfl
  · exact Or.inr s.isMsgID_natsMsgID
  all_goals exact Or.inl (Or.inl (hasStart_append _ _))

/-- What the original headers become. -/
private theorem values_setAll_copy {copy : Header → Entry → Header} (hcopy : Copies copy)
    (original : Header) {fields : List (String × String)} (hnodup : (fields.map Prod.fst).Nodup) :
    let header := (copyEntries copy (fun _ => false) .empty original.rows).setAll fields
    (∀ name value, (name, value) ∈ fields → header.values name = [value]) ∧
      ∀ name, name ∉ fields.map Prod.fst → header.values name = original.values name := by
  intro header
  refine ⟨fun name value h => Header.values_setAll_of_mem _ hnodup h, ?_⟩
  intro name h
  rw [Header.values_setAll_of_not_mem _ h, values_copyEntries hcopy, if_neg Bool.false_ne_true]

/-- `Park` of the Go services. -/
private theorem Queue.park_eq (q : Queue) (heap : Heap) :
    let header := (copyEntries assignEntry (fun _ => false) .empty
      (heap.header event.originalHeader).rows).setAll (q.fields event parkedAt)
    q.park event parkedAt heap = (⟨event.subject, header, event.payload⟩, heap ++ [header]) := by
  simp only [Queue.park, cloneHeaders, copyInto_eq, setAll_eq, Heap.header_length]

/-- `parkOrderCreated`, which sets `Nats-Msg-Id` last. -/
private theorem parkOrderCreated_eq (heap : Heap) :
    let header := (copyEntries appendEntry (fun _ => false) .empty
      (heap.header event.originalHeader).rows).setAll
        ((expirationQueue.fields event parkedAt).tail ++
          [(natsMsgID, expirationQueue.msgID event.originalStream event.originalSeq)])
    parkOrderCreated event parkedAt heap =
      (⟨orderCreatedDeadLetterSubject, header, event.payload⟩, heap ++ [header]) := by
  simp only [parkOrderCreated, copyInto_eq, setAll_eq, Heap.header_length, Header.setAll,
    List.foldl_append]

/-- Parking publishes a copy of the original headers with those of the queue, and leaves all objects
alone that were there before. -/
theorem Service.park_spec (heap : Heap) (hsubject : event.subject ∈ s.queue.subjects) :
    ∃ header : Header,
      s.park event parkedAt heap = (⟨event.subject, header, event.payload⟩, heap ++ [header]) ∧
      (∀ name value, (name, value) ∈ s.queue.fields event parkedAt →
        header.values name = [value]) ∧
      ∀ name, name ∉ (s.queue.fields event parkedAt).map Prod.fst →
        header.values name = (heap.header event.originalHeader).values name := by
  have hnodup := s.nodup_fields event parkedAt
  cases s with
  | expiration =>
    -- Expiration has one subject of its own, and sets the same headers in another order.
    have hone : event.subject = orderCreatedDeadLetterSubject := List.mem_singleton.mp hsubject
    have hperm : ((expirationQueue.fields event parkedAt).tail ++
        [(natsMsgID, expirationQueue.msgID event.originalStream event.originalSeq)]).Perm
          (expirationQueue.fields event parkedAt) := List.perm_append_comm
    have hvalues := values_setAll_copy copies_appendEntry (heap.header event.originalHeader)
      ((hperm.map Prod.fst).nodup_iff.mpr hnodup)
    refine ⟨_, (parkOrderCreated_eq event parkedAt heap).trans (by rw [hone]), ?_, ?_⟩
    · exact fun name value h => hvalues.1 name value (hperm.mem_iff.mpr h)
    · exact fun name h => hvalues.2 name fun hmem => h ((hperm.map Prod.fst).mem_iff.mp hmem)
  | _ =>
    have hvalues := values_setAll_copy copies_assignEntry (heap.header event.originalHeader) hnodup
    exact ⟨_, Queue.park_eq event parkedAt _ heap, hvalues⟩

end Fields

/-- The subject that a replay reads from a parked message. -/
def Service.originalSubject (s : Service) (header : Header) : String :=
  s.queue.originalSubject header

section Replay

variable (s : Service) (sequence : ℕ) (heap : Heap) {message : Msg}

/-- `ReplayOrdersDeadLetter` and its copies, where they publish a message. -/
private theorem Queue.replay_eq (q : Queue) (hsubject : message.subject ∈ q.subjects)
    (hconsumed : q.originalSubject message.header ∈ q.consumed) :
    let header := (copyEntries assignEntry q.skips .empty message.header.rows).setAll
      [(natsMsgID, q.replayID sequence)]
    q.replay sequence (some message) heap = .ok
      (⟨q.originalSubject message.header, header, message.data⟩,
        heap ++ [message.header] ++ [header]) := by
  simp only [Queue.replay, hsubject, hconsumed, not_true_eq_false, if_false, copyInto_eq, setAll_eq,
    Heap.header_length]

/-- `replayExpirationDeadLetter`, where it publishes a message. -/
private theorem replayExpirationDeadLetter_eq
    (hsubject : message.subject = orderCreatedDeadLetterSubject)
    (hconsumed : message.header.get (expirationQueue.headerStart ++ "Original-Subject") =
      orderCreatedSubject) :
    let header := (copyEntries appendEntry expirationSkips .empty message.header.rows).setAll
      [(natsMsgID, expirationQueue.replayID sequence)]
    replayExpirationDeadLetter sequence (some message) heap = .ok
      (⟨orderCreatedSubject, header, message.data⟩, heap ++ [message.header] ++ [header]) := by
  simp only [replayExpirationDeadLetter, hsubject, hconsumed, ne_eq, not_true_eq_false, if_false,
    copyInto_eq, setAll_eq, Heap.header_length]

/-- What the headers of a parked message become. -/
private theorem values_replayed {copy : Header → Entry → Header} (hcopy : Copies copy)
    (original : Header) (skips : String → Bool) (id name : String) :
    ((copyEntries copy skips .empty original.rows).setAll [(natsMsgID, id)]).values name =
      if name = natsMsgID then [id] else if skips name then [] else original.values name := by
  rw [Header.setAll, List.foldl_cons, List.foldl_nil, Header.values_set, values_copyEntries hcopy]

/-- A replay publishes the message with the headers that it does not leave out, and a new
`Nats-Msg-Id`. -/
theorem Service.replay_spec (hsubject : message.subject ∈ s.queue.subjects)
    (hconsumed : s.originalSubject message.header ∈ s.queue.consumed) :
    ∃ header : Header,
      s.replay sequence (some message) heap = .ok
        (⟨s.originalSubject message.header, header, message.data⟩,
          heap ++ [message.header] ++ [header]) ∧
      ∀ name, header.values name = if name = natsMsgID then [s.queue.replayID sequence]
        else if s.skips name then [] else message.header.values name := by
  cases s with
  | expiration =>
    -- There is one subject only, so it is the one that the code compares with.
    have hone : message.subject = orderCreatedDeadLetterSubject := List.mem_singleton.mp hsubject
    have horiginal : Service.expiration.originalSubject message.header = orderCreatedSubject :=
      List.mem_singleton.mp hconsumed
    have hget : message.header.get (expirationQueue.headerStart ++ "Original-Subject") =
        orderCreatedSubject := by
      rw [Service.originalSubject, Queue.originalSubject] at horiginal
      split at horiginal
      · exact horiginal
      · exact absurd horiginal (show "" ≠ orderCreatedSubject by decide)
    exact ⟨_, (replayExpirationDeadLetter_eq sequence heap hone hget).trans
      (by rw [horiginal, Service.queue]),
      values_replayed copies_appendEntry message.header expirationSkips _⟩
  | _ =>
    exact ⟨_, Queue.replay_eq sequence heap _ hsubject hconsumed,
      values_replayed copies_assignEntry message.header _ _⟩

/-- Nothing is replayed on a subject that the service does not consume. -/
theorem Service.consumed_of_replay {stored : Option Msg} {msg : Msg} {heap' : Heap}
    (h : s.replay sequence stored heap = .ok (msg, heap')) :
    msg.subject ∈ s.queue.consumed ∧
      ∃ message, stored = some message ∧ msg.subject = s.originalSubject message.header := by
  cases stored with
  | none => cases s <;> simp [Service.replay, Queue.replay, replayExpirationDeadLetter] at h
  | some message =>
    cases s with
    | expiration =>
      simp only [Service.replay, replayExpirationDeadLetter] at h
      split at h
      next => cases h
      next =>
        split at h
        next => cases h
        next hsubject =>
          cases h
          have hget : message.header.get (expirationQueue.headerStart ++ "Original-Subject") =
              orderCreatedSubject := not_not.mp hsubject
          refine ⟨List.mem_singleton.mpr hget, message, rfl, ?_⟩
          rw [Service.originalSubject, Queue.originalSubject, Service.queue, if_pos]
          rw [hget]
          decide
    | _ =>
      simp only [Service.replay, Queue.replay] at h
      split at h
      next => cases h
      next =>
        split at h
        next => cases h
        next hsubject =>
          cases h
          exact ⟨not_not.mp hsubject, message, rfl, rfl⟩

end Replay

/-- The streams that a service publishes to when it parks and replays messages. -/
structure JetStream where
  /-- The dead letter queue. The sequence of a message is its place, counted from one. -/
  deadLetters : List Msg
  /-- The other streams. -/
  published : List Msg

/-- The message that the dead letter queue has at a sequence. -/
def JetStream.getMsg (js : JetStream) (sequence : ℕ) : Option Msg :=
  if sequence = 0 then none else js.deadLetters[sequence - 1]?

/-- Publish a message. JetStream drops it if the dead letter queue has one with its
`Nats-Msg-Id`. -/
def JetStream.publish (js : JetStream) (q : Queue) (msg : Msg) : JetStream :=
  if msg.subject ∈ q.subjects then
    if ∃ m ∈ js.deadLetters, m.header.get natsMsgID = msg.header.get natsMsgID then js
    else { js with deadLetters := js.deadLetters ++ [msg] }
  else { js with published := js.published ++ [msg] }

/-- A service does not consume its own dead letters. -/
theorem Service.not_mem_subjects_of_consumed (s : Service) {subject : String}
    (h : subject ∈ s.queue.consumed) : subject ∉ s.queue.subjects := by
  have hdisjoint : ∀ subject ∈ s.queue.consumed, subject ∉ s.queue.subjects := by
    cases s <;> decide
  exact hdisjoint subject h

/-- The values under a name of the queue are those of the original message: none. -/
def Unreserved (s : Service) (original : Header) : Prop :=
  ∀ name, s.Reserved name → original.values name = []

/-- `event` parks a message that the service consumes. -/
structure Parks (s : Service) (event : DeadLetter) (heap : Heap) (subject : String)
    (original : Header) (payload : List UInt8) : Prop where
  queued : event.subject ∈ s.queue.subjects
  originalSubject : event.originalSubject = subject
  data : event.payload = payload
  header : ∀ name, (heap.header event.originalHeader).values name = original.values name

/-- A replayed message is the original one with another `Nats-Msg-Id`. -/
structure Restores (s : Service) (subject : String) (original : Header) (payload : List UInt8)
    (sequence : ℕ) (msg : Msg) : Prop where
  subject : msg.subject = subject
  data : msg.data = payload
  header : ∀ name, ¬s.IsMsgID name → msg.header.values name = original.values name
  msgID : ∀ name, s.IsMsgID name → msg.header.values name =
    if name = natsMsgID then [s.queue.replayID sequence] else []

section RoundTrip

variable {s : Service} {event : DeadLetter} {heap : Heap} {subject : String} {original : Header}
  {payload : List UInt8} {sequence : ℕ} {msg : Msg}

/-- Replayed messages carry no headers of the queue. -/
theorem Restores.unreserved (h : Restores s subject original payload sequence msg)
    (horiginal : Unreserved s original) : Unreserved s msg.header := by
  intro name hreserved
  -- `Nats-Msg-Id` is no name of the queue; the other names have their original values.
  by_cases hid : s.IsMsgID name
  · rw [h.msgID name hid, if_neg]
    rintro rfl
    revert hreserved
    cases s <;> decide
  · rw [h.header name hid, horiginal name hreserved]

/-- Parking and then replaying a message restores it. -/
theorem restores_replay_park (h : Parks s event heap subject original payload)
    (hconsumed : subject ∈ s.queue.consumed) (horiginal : Unreserved s original)
    (parkedAt : String) (heap' : Heap) (sequence : ℕ) :
    ∃ msg, Restores s subject original payload sequence msg ∧
      ∃ new, s.replay sequence (some (s.park event parkedAt heap).1) heap' =
        .ok (msg, heap' ++ new) := by
  obtain ⟨header, hpark, hfields, hothers⟩ := s.park_spec event parkedAt heap h.queued
  rw [hpark]
  -- The parked message says what its original subject was.
  have hget : header.get (s.queue.headerStart ++ "Original-Subject") = subject := by
    rw [Header.get, hfields _ event.originalSubject (by simp [Queue.fields]), h.originalSubject]
    rfl
  have hsubject : s.originalSubject header = subject := by
    rw [Service.originalSubject, Queue.originalSubject, hget, if_pos]
    rintro rfl
    revert hconsumed
    cases s <;> decide
  obtain ⟨header', hreplay, hvalues⟩ :=
    @Service.replay_spec s sequence heap' ⟨event.subject, header, event.payload⟩ h.queued
      (hsubject ▸ hconsumed)
  refine ⟨⟨subject, header', payload⟩, ⟨rfl, rfl, ?_, ?_⟩, [header] ++ [header'], ?_⟩
  · intro name hid
    have hname : name ≠ natsMsgID := by
      rintro rfl
      exact hid s.isMsgID_natsMsgID
    rw [hvalues, if_neg hname]
    -- A name that is left out is one of the queue, which the original message has no values for. A
    -- name that is kept is none of those that were added.
    by_cases hskip : s.skips name = true
    · rw [if_pos hskip, horiginal name (((s.skips_iff name).mp hskip).resolve_right hid)]
    · rw [if_neg hskip, hothers name fun hmem => hskip (s.skips_of_mem_fields event parkedAt hmem),
        h.header]
  · intro name hid
    rw [hvalues, if_pos ((s.skips_iff name).mpr (Or.inr hid))]
  · rw [hreplay, hsubject, h.data, List.append_assoc]

/-- What restores a restored message restores the original one. -/
theorem Restores.trans (h : Restores s subject original payload sequence msg) {sequence' : ℕ}
    {msg' : Msg} (h' : Restores s msg.subject msg.header msg.data sequence' msg') :
    Restores s subject original payload sequence' msg' where
  subject := h'.subject.trans h.subject
  data := h'.data.trans h.data
  header := fun name hid => (h'.header name hid).trans (h.header name hid)
  msgID := h'.msgID

/-- Wherever the queue has `event` as it was parked, its replay publishes a message with `P`, and
leaves the queue and all objects alone. -/
def Replayed (s : Service) (event : DeadLetter) (heap : Heap) (P : ℕ → Msg → Prop) : Prop :=
  ∀ (parkedAt : String) (js : JetStream) (sequence : ℕ) (heap' : Heap),
    js.getMsg sequence = some (s.park event parkedAt heap).1 →
    ∃ msg new, s.replay sequence (js.getMsg sequence) heap' = .ok (msg, heap' ++ new) ∧
      (js.publish s.queue msg).deadLetters = js.deadLetters ∧ P sequence msg

theorem replayed_of_parks (h : Parks s event heap subject original payload)
    (hconsumed : subject ∈ s.queue.consumed) (horiginal : Unreserved s original) :
    Replayed s event heap (Restores s subject original payload) := by
  intro parkedAt js sequence heap' hstored
  obtain ⟨msg, hrestores, new, hreplay⟩ :=
    restores_replay_park h hconsumed horiginal parkedAt heap' sequence
  refine ⟨msg, new, by rw [hstored, hreplay], ?_, hrestores⟩
  -- The message goes to a subject that the service consumes, so not to the queue.
  rw [JetStream.publish, if_neg]
  rw [hrestores.subject]
  exact s.not_mem_subjects_of_consumed hconsumed

end RoundTrip

/-- The replays of different messages are no duplicates. -/
theorem Queue.replayID_injective (q : Queue) {n n' : ℕ} (h : q.replayID n = q.replayID n') :
    n = n' :=
  toString_nat_injective ((String.append_right_inj _).mp h)

/-- Parking leaves the original headers alone. Replaying what was parked gives the message back,
with all of its headers but `Nats-Msg-Id`, in whichever letter case; it leaves the queue alone, and
it can be parked and replayed again. Nothing is replayed on a subject that is not consumed, and no
two messages of the queue are replayed with the same `Nats-Msg-Id`. -/
theorem replay_park (s : Service) :
    (∀ event parkedAt heap, event.subject ∈ s.queue.subjects →
      heap <+: (s.park event parkedAt heap).2) ∧
    (∀ event heap subject original payload, Parks s event heap subject original payload →
      subject ∈ s.queue.consumed → Unreserved s original →
      Replayed s event heap fun sequence msg => Restores s subject original payload sequence msg ∧
        ∀ event' heap', Parks s event' heap' msg.subject msg.header msg.data →
          Replayed s event' heap' (Restores s subject original payload)) ∧
    (∀ sequence stored heap msg heap', s.replay sequence stored heap = .ok (msg, heap') →
      msg.subject ∈ s.queue.consumed ∧
        ∃ message, stored = some message ∧ msg.subject = s.originalSubject message.header) ∧
    ∀ n n', s.queue.replayID n = s.queue.replayID n' → n = n' := by
  refine ⟨?_, ?_, fun sequence stored heap msg heap' => s.consumed_of_replay sequence heap,
    fun n n' => s.queue.replayID_injective⟩
  · intro event parkedAt heap hsubject
    obtain ⟨header, hpark, -⟩ := s.park_spec event parkedAt heap hsubject
    rw [hpark]
    exact List.prefix_append heap [header]
  · intro event heap subject original payload h hconsumed horiginal parkedAt js sequence heap'
      hstored
    obtain ⟨msg, new, hreplay, hsame, hrestores⟩ :=
      replayed_of_parks h hconsumed horiginal parkedAt js sequence heap' hstored
    refine ⟨msg, new, hreplay, hsame, hrestores, ?_⟩
    intro event' heap' h' parkedAt' js' sequence' heap'' hstored'
    -- What was replayed is again a message that the service consumes, without headers of the queue.
    obtain ⟨msg', new', hreplay', hsame', hrestores'⟩ :=
      replayed_of_parks h' (hrestores.subject ▸ hconsumed) (hrestores.unreserved horiginal)
        parkedAt' js' sequence' heap'' hstored'
    exact ⟨msg', new', hreplay', hsame', hrestores.trans hrestores'⟩

/-- A header object with one entry, which is not `Nats-Msg-Id` but reads the same in lower case. -/
def lowercaseHeader : Header := ⟨[⟨"nats-msg-id", ["1"]⟩], by decide⟩

/-- An event with that header, which Orders parks. -/
def lowercaseEvent : DeadLetter where
  consumer := "orders-ticket-projection-v1"
  deliveryCount := 1
  failureClass := "invalid"
  failureReason := "ticket event is invalid"
  originalHeader := some 0
  originalStream := "TICKETS_EVENTS"
  originalSeq := 1
  originalSubject := ticketCreatedSubject
  payload := []
  subject := ticketProjectionDeadLetterSubject

/-- That header is lost, so not all headers other than `Nats-Msg-Id` come back. -/
theorem not_restored_lowercase :
    ¬∀ (s : Service) event parkedAt heap sequence heap' msg heap'',
      event.subject ∈ s.queue.subjects → event.originalSubject ∈ s.queue.consumed →
      Unreserved s (heap.header event.originalHeader) →
      s.replay sequence (some (s.park event parkedAt heap).1) heap' = .ok (msg, heap'') →
      ∀ name, name ≠ natsMsgID →
        msg.header.values name = (heap.header event.originalHeader).values name := by
  intro h
  have horiginal : Unreserved .orders lowercaseHeader := by
    intro name hreserved
    have hname : name ≠ "nats-msg-id" := by
      rintro rfl
      revert hreserved
      decide
    simp [Header.values, lowercaseHeader, Table.find?, Ne.symm hname]
  have hparks : Parks .orders lowercaseEvent [lowercaseHeader] ticketCreatedSubject lowercaseHeader
      [] := ⟨by decide, rfl, rfl, fun _ => rfl⟩
  obtain ⟨msg, hrestores, new, hreplay⟩ :=
    restores_replay_park hparks (by decide) horiginal "" [] 1
  have hkept := h .orders lowercaseEvent "" [lowercaseHeader] 1 [] msg _ (by decide) (by decide)
    horiginal hreplay "nats-msg-id" (by decide)
  have hlost := hrestores.msgID "nats-msg-id" (by decide)
  rw [if_neg (by decide)] at hlost
  rw [hlost] at hkept
  exact absurd hkept (show [] ≠ ["1"] by decide)

end Messaging
