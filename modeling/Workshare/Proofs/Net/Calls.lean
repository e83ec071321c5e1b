import Mathlib.Data.List.Induction
import Workshare.Net.Correlation

namespace Workshare.Correlation

/-- A turn of a caller, of the network, or of whoever closes the channel. -/
inductive Act
  | calls (op : UInt16) (body : List UInt8) (limit : Duration)
  | tells (op : UInt16) (body : List UInt8)
  | sends (id : Nat) (fault : Option String)
  | hears (bytes : List UInt8)
  | expires (id : Nat)
  | finishes (id : Nat)
  | closes

/-- A channel, and what its calls have returned so far. -/
structure Session where
  channel : Correlation
  returned : List (Nat × CallResult)

namespace Session

def act (s : Session) : Act → Session
  | .calls op body limit => { s with channel := s.channel.call op body limit }
  | .tells op body => { s with channel := (s.channel.oneWay op body).1 }
  | .sends id fault => { s with channel := s.channel.sent id fault }
  | .hears bytes => { s with channel := s.channel.hear bytes }
  | .expires id => { s with channel := s.channel.expire id }
  | .finishes id => ⟨(s.channel.finish id).1, s.returned ++ ((s.channel.finish id).2.map fun r => (id, r)).toList⟩
  | .closes => { s with channel := s.channel.close }

def run (acts : List Act) : Session :=
  acts.foldl act ⟨start, []⟩

theorem run_append (xs ys : List Act) : run (xs ++ ys) = ys.foldl act (run xs) :=
  List.foldl_append

theorem run_concat (acts : List Act) (a : Act) : run (acts ++ [a]) = (run acts).act a :=
  run_append acts [a]

end Session

open Session

def taken (acts : List Act) : Nat :=
  acts.countP fun
    | .calls _ _ _ => true
    | .tells _ _ => true
    | _ => false

theorem taken_append (xs ys : List Act) : taken (xs ++ ys) = taken xs + taken ys :=
  List.countP_append

/-- The last of some acts begins call number `id`. -/
def Begins (acts : List Act) (id : Nat) (op : UInt16) (body : List UInt8) (limit : Duration) : Prop :=
  ∃ before, acts = before ++ [.calls op body limit] ∧ id = taken before + 1

/-- A datagram with the reply to call number `id`. -/
def Brings (id : Nat) (r : FrameResult) (a : Act) : Prop :=
  ∃ bytes n, a = .hears bytes ∧ Frame.codec.decode bytes = .ok (.reply n r) ∧ n.toNat = id

/-- Nothing came for call number `id`: neither a reply nor the end of the channel. -/
def Untouched (id : Nat) (acts : List Act) : Prop :=
  ∀ a ∈ acts, a ≠ .closes ∧ ∀ r, ¬ Brings id r a

/-- A turn that is neither a datagram nor the end of the channel. -/
def Act.Quiet (a : Act) : Prop :=
  a ≠ .closes ∧ ∀ bytes, a ≠ .hears bytes

theorem Act.Quiet.untouched {a : Act} (h : a.Quiet) (id : Nat) : a ≠ .closes ∧ ∀ r, ¬ Brings id r a := by
  refine ⟨h.1, fun r brings => ?_⟩
  obtain ⟨bytes, n, rfl, _⟩ := brings
  exact h.2 bytes rfl

/-- What a call may return with that was begun by the last act of `first` and went on for `after`. -/
inductive Due (first after : List Act) (id : Nat) (op : UInt16) (body : List UInt8) (limit : Duration) : CallResult → Prop
  | replied {mid rest a r} (split : after = mid ++ a :: rest) (fresh : Untouched id mid)
      (pending : (run (first ++ mid)).channel.pending.contains id) (brings : Brings id r a) : Due first after id op body limit (result r)
  | tooLarge {fault} (sent : .sends id fault ∈ after) (large : Frame.maxSize < (Frame.codec.write (.request id.toUInt64 op body true)).length) :
    Due first after id op body limit (.error (Frame.tooLarge (Frame.codec.write (.request id.toUInt64 op body true)).length))
  | unsent {text} (sent : .sends id (some text) ∈ after) : Due first after id op body limit (.error (.io text))
  | expired (expires : .expires id ∈ after) : Due first after id op body limit (.error (.timeout limit))
  | closed {mid rest} (split : after = mid ++ .closes :: rest) (fresh : Untouched id mid)
      (pending : (run (first ++ mid)).channel.pending.contains id) : Due first after id op body limit (.error .closed)

/-- What is found in a slot tells what came first. -/
def Filled (first after : List Act) (id : Nat) : Slot → Prop
  | .empty => Untouched id after
  | .reply r => ∃ mid a rest, after = mid ++ a :: rest ∧ Untouched id mid ∧
      (run (first ++ mid)).channel.pending.contains id ∧ Brings id r a
  | .dropped => ∃ mid rest, after = mid ++ .closes :: rest ∧ Untouched id mid ∧
      (run (first ++ mid)).channel.pending.contains id

/-- A frame that does not leave is too large, or the network has a fault. -/
theorem due_of_send {first after : List Act} {id : Nat} {op : UInt16} {body : List UInt8} {limit : Duration}
    {fault : Option String} {e : ChannelError} (failed : (Frame.request id.toUInt64 op body true).send fault = .error e)
    (sent : .sends id fault ∈ after) : Due first after id op body limit (.error e) := by
  unfold Frame.send Frame.encode at failed
  dsimp only at failed
  split at failed
  next =>
    cases fault with
    | none => cases failed
    | some text => cases failed; exact .unsent sent
  next large =>
    cases failed
    exact .tooLarge sent (Nat.lt_of_not_le large)

section Later

variable {first after acts : List Act} {id : Nat} {op : UInt16} {body : List UInt8} {limit : Duration} {r : CallResult}
  {slot : Slot}

theorem Due.later (h : Due first after id op body limit r) (a : Act) : Due first (after ++ [a]) id op body limit r := by
  have kept : ∀ {b}, b ∈ after → b ∈ after ++ [a] := fun hb => List.mem_append_left _ hb
  cases h with
  | replied split fresh pending brings =>
    exact .replied (by rw [split, List.append_assoc]; rfl) fresh pending brings
  | tooLarge sent large => exact .tooLarge (kept sent) large
  | unsent sent => exact .unsent (kept sent)
  | expired expires => exact .expired (kept expires)
  | closed split fresh pending => exact .closed (by rw [split, List.append_assoc]; rfl) fresh pending

theorem Untouched.later (h : Untouched id after) {a : Act} (other : a ≠ .closes ∧ ∀ r, ¬ Brings id r a) :
    Untouched id (after ++ [a]) :=
  List.forall_mem_append.mpr ⟨h, List.forall_mem_singleton.mpr other⟩

theorem Filled.later (h : Filled first after id slot) {a : Act}
    (other : slot = .empty → a ≠ .closes ∧ ∀ r, ¬ Brings id r a) : Filled first (after ++ [a]) id slot := by
  cases slot with
  | empty => exact Untouched.later h (other rfl)
  | reply r =>
    obtain ⟨mid, b, rest, rfl, fresh, pending, brings⟩ := h
    exact ⟨mid, b, rest ++ [a], List.append_assoc .., fresh, pending, brings⟩
  | dropped =>
    obtain ⟨mid, rest, rfl, fresh, pending⟩ := h
    exact ⟨mid, rest ++ [a], List.append_assoc .., fresh, pending⟩

theorem Filled.slot_empty (h : Filled first after id slot) (fresh : Untouched id after) : slot = .empty := by
  cases slot with
  | empty => rfl
  | reply r =>
    obtain ⟨mid, a, rest, rfl, _, _, brings⟩ := h
    exact absurd brings ((fresh a (List.mem_append_right _ List.mem_cons_self)).2 r)
  | dropped =>
    obtain ⟨mid, rest, rfl, _, _⟩ := h
    exact absurd rfl (fresh .closes (List.mem_append_right _ List.mem_cons_self)).1

end Later

/-- A call that has not returned: what it waits for, what is in its slot, and the error it fails with, if it does. -/
structure Open (acts : List Act) (id : Nat) (call : Call) : Prop where
  story : ∃ first after op body, acts = first ++ after ∧ Begins first id op body call.limit ∧
    call.frame = .request id.toUInt64 op body true ∧ Filled first after id call.slot ∧
    ∀ e, call.stage = .failing e → Due first after id op body call.limit (.error e)

/-- What holds between the turns. -/
structure Sound (acts : List Act) (s : Session) : Prop where
  next : s.channel.next = (taken acts + 1).toUInt64
  opened : ∀ {id call}, s.channel.calls.get? id = some call → Open acts id call
  wanted : ∀ id, s.channel.pending.contains id ↔ ∃ call, s.channel.calls.get? id = some call ∧ call.slot = .empty
  /-- A call that was begun has not returned, or it has. -/
  known : ∀ {first after id op body limit}, acts = first ++ after → Begins first id op body limit →
    s.channel.calls.contains id ∨ id ∈ s.returned.map (·.1)
  due : ∀ {id r}, (id, r) ∈ s.returned → ∃ first after op body limit, acts = first ++ after ∧
    Begins first id op body limit ∧ Due first after id op body limit r
  once : (s.returned.map (·.1)).Nodup
  apart : ∀ {id}, s.channel.calls.contains id → id ∉ s.returned.map (·.1)

section Steps

variable {acts : List Act} {s : Session} {id : Nat} {call : Call}

theorem Open.later (h : Open acts id call) {a : Act} (other : call.slot = .empty → a ≠ .closes ∧ ∀ r, ¬ Brings id r a) :
    Open (acts ++ [a]) id call := by
  obtain ⟨first, after, op, body, rfl, begins, frame, filled, failing⟩ := h.story
  exact ⟨first, after ++ [a], op, body, List.append_assoc .., begins, frame, filled.later other,
    fun e he => (failing e he).later a⟩

theorem Begins.le {first after : List Act} {op : UInt16} {body : List UInt8} {limit : Duration}
    (h : Begins first id op body limit) : id ≤ taken (first ++ after) := by
  obtain ⟨before, rfl, rfl⟩ := h
  rw [taken_append, taken_append]
  have one : taken [.calls op body limit] = 1 := rfl
  omega

theorem Sound.le_of_returned (h : Sound acts s) (hr : id ∈ s.returned.map (·.1)) : id ≤ taken acts := by
  obtain ⟨⟨id, r⟩, he, rfl⟩ := List.mem_map.mp hr
  obtain ⟨first, after, op, body, limit, rfl, begins, _⟩ := h.due he
  exact begins.le

theorem Begins.unique {first first' after after' : List Act} {op op' : UInt16} {body body' : List UInt8}
    {limit limit' : Duration} (same : first ++ after = first' ++ after') (h : Begins first id op body limit)
    (h' : Begins first' id op' body' limit') : after = after' := by
  have shorter : ∀ {xs ys : List Act} {op op' : UInt16} {body body' : List UInt8} {limit limit' : Duration},
      Begins xs id op body limit → Begins (xs ++ ys) id op' body' limit' → ys = [] := by
    rintro xs ys op op' body body' limit limit' ⟨before, rfl, he⟩ ⟨before', split, he'⟩
    rcases List.eq_nil_or_concat ys with rfl | ⟨zs, b, rfl⟩
    · rfl
    · rw [List.concat_eq_append, ← List.append_assoc] at split
      obtain ⟨rfl, _⟩ := List.append_inj' split rfl
      rw [taken_append, taken_append] at he'
      have one : taken [.calls op body limit] = 1 := rfl
      omega
  rcases List.append_eq_append_iff.mp same with ⟨mid, rfl, rfl⟩ | ⟨mid, rfl, rfl⟩
  · rw [shorter h h', List.nil_append]
  · rw [shorter h' h, List.nil_append]

theorem begins_concat {first after : List Act} {a : Act} {op : UInt16} {body : List UInt8} {limit : Duration}
    (split : acts ++ [a] = first ++ after) (begins : Begins first id op body limit) :
    (a = .calls op body limit ∧ id = taken acts + 1) ∨ ∃ after', acts = first ++ after' ∧ after = after' ++ [a] := by
  rcases List.eq_nil_or_concat after with rfl | ⟨after', b, rfl⟩
  · obtain ⟨before, rfl, rfl⟩ := begins
    rw [List.append_nil] at split
    obtain ⟨rfl, last⟩ := List.append_inj' split rfl
    exact .inl ⟨(List.cons.inj last).1, rfl⟩
  · rw [List.concat_eq_append, ← List.append_assoc] at split
    obtain ⟨rfl, last⟩ := List.append_inj' split rfl
    rw [(List.cons.inj last).1, List.concat_eq_append]
    exact .inr ⟨after', rfl, rfl⟩

theorem Sound.due_later (h : Sound acts s) (a : Act) {r : CallResult} (hr : (id, r) ∈ s.returned) :
    ∃ first after op body limit, acts ++ [a] = first ++ after ∧ Begins first id op body limit ∧
      Due first after id op body limit r := by
  obtain ⟨first, after, op, body, limit, rfl, begins, due⟩ := h.due hr
  exact ⟨first, after ++ [a], op, body, limit, List.append_assoc .., begins, due.later a⟩

/-- A turn that begins nothing and after which nothing has returned: what is left to see are the calls and who is pending. -/
theorem Sound.of_calls (h : Sound acts s) {a : Act} (begun : ∀ op body limit, a ≠ .calls op body limit) {c : Correlation}
    (next : c.next = (taken (acts ++ [a]) + 1).toUInt64)
    (opened : ∀ {id call}, c.calls.get? id = some call → Open (acts ++ [a]) id call)
    (wanted : ∀ id, c.pending.contains id ↔ ∃ call, c.calls.get? id = some call ∧ call.slot = .empty)
    (same : ∀ id, c.calls.contains id = s.channel.calls.contains id) : Sound (acts ++ [a]) { s with channel := c } := by
  refine ⟨next, opened, wanted, ?_, h.due_later a, h.once, ?_⟩
  · intro first after id op body limit split begins
    rcases begins_concat split begins with ⟨he, _⟩ | ⟨after', split', _⟩
    · exact absurd he (begun op body limit)
    · rcases h.known split' begins with hc | hr
      · exact .inl ((same id).trans hc)
      · exact .inr hr
  · intro id hc
    exact h.apart ((same id).symm.trans hc)

theorem sound_calls (h : Sound acts s) (few : taken acts + 1 < UInt64.size) (op : UInt16) (body : List UInt8) (limit : Duration) :
    Sound (acts ++ [.calls op body limit]) (s.act (.calls op body limit)) := by
  have number : s.channel.next.toNat = taken acts + 1 := by
    rw [h.next]
    exact Nat.mod_eq_of_lt few
  have more : taken (acts ++ [.calls op body limit]) = taken acts + 1 := taken_append _ _
  -- there have been fewer calls than numbers, so that nobody has had this one
  have fresh : ∀ {id}, id = s.channel.next.toNat → id ∉ s.returned.map (·.1) := by
    intro id he hr
    have := h.le_of_returned hr
    omega
  have quiet : (Act.calls op body limit).Quiet := ⟨nofun, nofun⟩
  refine ⟨?_, ?_, ?_, ?_, h.due_later _, h.once, ?_⟩
  · show s.channel.next + 1 = _
    rw [h.next, more]
    exact (UInt64.ofNat_add _ _).symm
  · intro id call hc
    have hc : (s.channel.calls.insert s.channel.next.toNat _).get? id = some call := hc
    rw [Table.get?_insert] at hc
    split at hc
    next he =>
      cases hc
      refine ⟨_, [], op, body, (List.append_nil _).symm, ⟨acts, rfl, he.trans number⟩, ?_, nofun, nofun⟩
      rw [he, number, h.next]
    next => exact (h.opened hc).later fun _ => quiet.untouched id
  · intro id
    show (s.channel.pending.insert _ ()).contains id ↔ ∃ call, (s.channel.calls.insert _ _).get? id = some call ∧ _
    rw [Table.contains_insert, Table.get?_insert]
    split
    next he => simp [he]
    next he => simpa [he] using h.wanted id
  · intro first after id op' body' limit' split begins
    show (s.channel.calls.insert _ _).contains id ∨ _
    rw [Table.contains_insert]
    rcases begins_concat split begins with ⟨_, he⟩ | ⟨after', split', _⟩
    · simp [he, number]
    · rcases h.known split' begins with hc | hr
      · simp [hc]
      · exact .inr hr
  · intro id hc
    have hc : (s.channel.calls.insert s.channel.next.toNat _).contains id := hc
    rw [Table.contains_insert, Bool.or_eq_true, decide_eq_true_iff] at hc
    rcases hc with he | hc
    · exact fresh he
    · exact h.apart hc

theorem sound_tells (h : Sound acts s) (op : UInt16) (body : List UInt8) :
    Sound (acts ++ [.tells op body]) (s.act (.tells op body)) := by
  have more : taken (acts ++ [.tells op body]) = taken acts + 1 := taken_append _ _
  have quiet : (Act.tells op body).Quiet := ⟨nofun, nofun⟩
  refine h.of_calls (fun _ _ _ he => by cases he) ?_ ?_ h.wanted fun _ => rfl
  · show s.channel.next + 1 = _
    rw [h.next, more]
    exact (UInt64.ofNat_add _ _).symm
  · intro id call hc
    exact (h.opened hc).later fun _ => quiet.untouched id

/-- A turn that changes nothing has not brought anything for a call with an empty slot. -/
theorem Sound.of_same (h : Sound acts s) {a : Act} (taken_eq : taken (acts ++ [a]) = taken acts)
    (begun : ∀ op body limit, a ≠ .calls op body limit)
    (other : ∀ {id call}, s.channel.calls.get? id = some call → call.slot = .empty → a ≠ .closes ∧ ∀ r, ¬ Brings id r a) :
    Sound (acts ++ [a]) s :=
  h.of_calls begun (by rw [taken_eq, h.next]) (fun hc => (h.opened hc).later (other hc)) h.wanted fun _ => rfl

theorem Sound.of_stage (h : Sound acts s) {a : Act} (taken_eq : taken (acts ++ [a]) = taken acts)
    (begun : ∀ op body limit, a ≠ .calls op body limit) (quiet : a.Quiet)
    {call' : Call} (hc : s.channel.calls.get? id = some call) (slot : call'.slot = call.slot)
    (story : Open (acts ++ [a]) id call') :
    Sound (acts ++ [a]) { s with channel := { s.channel with calls := s.channel.calls.insert id call' } } := by
  refine h.of_calls begun (by rw [taken_eq, ← h.next]) ?_ ?_ ?_
  · intro j other hj
    rw [Table.get?_insert] at hj
    split at hj
    next he => cases hj; rw [he]; exact story
    next => exact (h.opened hj).later fun _ => quiet.untouched j
  · intro j
    rw [Table.get?_insert, h.wanted j]
    split
    next he => subst he; simp [hc, slot]
    next => rfl
  · intro j
    have there : s.channel.calls.contains id = true := by unfold Table.contains; rw [hc]; rfl
    rw [Table.contains_insert]
    by_cases he : j = id
    · rw [he, there, Bool.or_true]
    · rw [decide_eq_false he, Bool.false_or]

theorem sent_of_error {c : Correlation} {frame : Frame} {limit : Duration} {slot : Slot} {fault : Option String} {e : ChannelError}
    (hc : c.calls.get? id = some ⟨frame, limit, .sending, slot⟩) (failed : frame.send fault = .error e) :
    c.sent id fault = { c with calls := c.calls.insert id ⟨frame, limit, .failing e, slot⟩ } := by
  unfold sent
  rw [hc]
  dsimp only
  rw [failed]

theorem sound_sends (h : Sound acts s) (id : Nat) (fault : Option String) :
    Sound (acts ++ [.sends id fault]) (s.act (.sends id fault)) := by
  have taken_eq : taken (acts ++ [.sends id fault]) = taken acts := taken_append _ _
  have begun : ∀ op body limit, Act.sends id fault ≠ .calls op body limit := fun _ _ _ he => by cases he
  have quiet : (Act.sends id fault).Quiet := ⟨nofun, nofun⟩
  show Sound _ { s with channel := s.channel.sent id fault }
  unfold sent
  split
  next frame limit slot hc =>
    obtain ⟨first, after, op, body, rfl, begins, frame_eq, filled, _⟩ := (h.opened hc).story
    have filled' : Filled first (after ++ [.sends id fault]) id slot := filled.later fun _ => quiet.untouched id
    have last : Act.sends id fault ∈ after ++ [.sends id fault] := List.mem_append_right _ List.mem_cons_self
    split
    next =>
      exact h.of_stage taken_eq begun quiet hc rfl
        ⟨first, _, op, body, List.append_assoc .., begins, frame_eq, filled', nofun⟩
    next e failed =>
      refine h.of_stage taken_eq begun quiet hc rfl
        ⟨first, _, op, body, List.append_assoc .., begins, frame_eq, filled', ?_⟩
      rintro e ⟨⟩
      subst frame_eq
      exact due_of_send failed last
  next => exact h.of_same taken_eq begun fun _ _ => quiet.untouched _

theorem sound_expires (h : Sound acts s) (id : Nat) : Sound (acts ++ [.expires id]) (s.act (.expires id)) := by
  have taken_eq : taken (acts ++ [.expires id]) = taken acts := taken_append _ _
  have begun : ∀ op body limit, Act.expires id ≠ .calls op body limit := fun _ _ _ he => by cases he
  have quiet : (Act.expires id).Quiet := ⟨nofun, nofun⟩
  show Sound _ { s with channel := s.channel.expire id }
  unfold expire
  split
  next frame limit hc =>
    obtain ⟨first, after, op, body, rfl, begins, frame_eq, filled, _⟩ := (h.opened hc).story
    have filled' : Filled first (after ++ [.expires id]) id .empty := filled.later fun _ => quiet.untouched id
    have last : Act.expires id ∈ after ++ [.expires id] := List.mem_append_right _ List.mem_cons_self
    refine h.of_stage taken_eq begun quiet hc rfl
      ⟨first, _, op, body, List.append_assoc .., begins, frame_eq, filled', ?_⟩
    rintro e ⟨⟩
    exact .expired last
  next => exact h.of_same taken_eq begun fun _ _ => quiet.untouched _

/-- Something comes for some of the pending calls and takes them out of the table. -/
theorem Sound.of_slots (h : Sound acts (run acts)) {a : Act} (taken_eq : taken (acts ++ [a]) = taken acts)
    (begun : ∀ op body limit, a ≠ .calls op body limit) (touched : Nat → Prop) [DecidablePred touched] {slot : Slot}
    {pending : Table Nat Unit} (solid : slot ≠ .empty)
    (untouched : ∀ id, ¬ touched id → (run acts).channel.pending.contains id → a ≠ .closes ∧ ∀ r, ¬ Brings id r a)
    (fills : ∀ id first after, touched id → acts = first ++ after → Filled first after id .empty →
      (run acts).channel.pending.contains id → Filled first (after ++ [a]) id slot)
    (left : ∀ id, pending.contains id ↔ (run acts).channel.pending.contains id ∧ ¬ touched id)
    (wanted : ∀ id, touched id → (run acts).channel.pending.contains id) :
    Sound (acts ++ [a]) { run acts with channel := { (run acts).channel with
      pending := pending
      calls := (run acts).channel.calls.mapValues fun id call => if touched id then { call with slot := slot } else call } } := by
  refine h.of_calls begun (by rw [taken_eq, ← h.next]) ?_ ?_ ?_
  · intro id call' hc'
    rw [Table.get?_mapValues] at hc'
    obtain ⟨call, hc, rfl⟩ := Option.map_eq_some_iff.mp hc'
    split
    next ht =>
      have pending := wanted id ht
      obtain ⟨first, after, op, body, split, begins, frame_eq, filled, failing⟩ := (h.opened hc).story
      obtain ⟨_, there, empty⟩ := (h.wanted id).mp pending
      rw [hc] at there
      cases there
      rw [empty] at filled
      refine ⟨first, after ++ [a], op, body, by rw [split, List.append_assoc], begins, frame_eq,
        fills id first after ht split filled pending, fun e he => (failing e he).later a⟩
    next ht => exact (h.opened hc).later fun empty => untouched id ht ((h.wanted id).mpr ⟨call, hc, empty⟩)
  · intro id
    rw [left id, h.wanted id, Table.get?_mapValues]
    constructor
    · rintro ⟨⟨call, hc, empty⟩, ht⟩
      exact ⟨call, by rw [hc, Option.map_some, if_neg ht], empty⟩
    · rintro ⟨call', hc', empty⟩
      obtain ⟨call, hc, rfl⟩ := Option.map_eq_some_iff.mp hc'
      split at empty
      next => exact absurd empty solid
      next ht => exact ⟨⟨call, hc, empty⟩, ht⟩
  · intro id
    unfold Table.contains
    rw [Table.get?_mapValues, Option.isSome_map]

theorem sound_hears (h : Sound acts (run acts)) (bytes : List UInt8) :
    Sound (acts ++ [.hears bytes]) ((run acts).act (.hears bytes)) := by
  have taken_eq : taken (acts ++ [.hears bytes]) = taken acts := taken_append _ _
  have begun : ∀ op body limit, Act.hears bytes ≠ .calls op body limit := fun _ _ _ he => by cases he
  show Sound _ { run acts with channel := (run acts).channel.hear bytes }
  unfold hear
  split
  next n r decoded =>
    have other : ∀ id, id ≠ n.toNat → Act.hears bytes ≠ .closes ∧ ∀ r, ¬ Brings id r (.hears bytes) := by
      refine fun id hne => ⟨nofun, fun r' brings => ?_⟩
      obtain ⟨bytes', n', same, decoded', rfl⟩ := brings
      cases same
      rw [decoded] at decoded'
      cases decoded'
      exact hne rfl
    unfold reply
    split
    next pending =>
      refine h.of_slots taken_eq begun (· = n.toNat) nofun (fun id hne _ => other id hne) ?_ ?_ fun id ht => ht ▸ pending
      · rintro id first after rfl split filled pending
        refine ⟨after, _, [], rfl, filled, ?_, bytes, n, rfl, decoded, rfl⟩
        rw [← split]
        exact pending
      · intro id
        rw [Table.contains_erase]
        simp [and_comm]
    next absent =>
      refine h.of_same taken_eq begun fun hc empty => other _ ?_
      rintro rfl
      exact absent ((h.wanted _).mpr ⟨_, hc, empty⟩)
  next none =>
    refine h.of_same taken_eq begun fun _ _ => ⟨nofun, fun r brings => ?_⟩
    obtain ⟨bytes', n, same, decoded, _⟩ := brings
    cases same
    exact none _ _ decoded

theorem sound_closes (h : Sound acts (run acts)) : Sound (acts ++ [.closes]) ((run acts).act .closes) := by
  have taken_eq : taken (acts ++ [.closes]) = taken acts := taken_append _ _
  have begun : ∀ op body limit, Act.closes ≠ .calls op body limit := fun _ _ _ he => by cases he
  refine h.of_slots taken_eq begun (fun id => (run acts).channel.pending.contains id) nofun
    (fun id ht hp => absurd hp ht) ?_ (fun id => by simp) fun id ht => ht
  rintro id first after _ split filled pending
  refine ⟨after, [], rfl, filled, ?_⟩
  rw [← split]
  exact pending

theorem Sound.of_return (h : Sound acts s) (hc : s.channel.calls.get? id = some call) {r : CallResult}
    (due : ∃ first after op body limit, acts = first ++ after ∧ Begins first id op body limit ∧
      Due first after id op body limit r) :
    Sound (acts ++ [.finishes id]) ⟨{ s.channel with
      pending := s.channel.pending.erase id
      calls := s.channel.calls.erase id }, s.returned ++ [(id, r)]⟩ := by
  have taken_eq : taken (acts ++ [.finishes id]) = taken acts := taken_append _ _
  have quiet : (Act.finishes id).Quiet := ⟨nofun, nofun⟩
  have there : s.channel.calls.contains id := Option.isSome_iff_exists.mpr ⟨call, hc⟩
  have names : (s.returned ++ [(id, r)]).map (·.1) = s.returned.map (·.1) ++ [id] := List.map_append
  refine ⟨by rw [taken_eq, ← h.next], ?_, ?_, ?_, ?_, ?_, ?_⟩
  · intro j other hj
    rw [Table.get?_erase] at hj
    split at hj
    next => cases hj
    next => exact (h.opened hj).later fun _ => quiet.untouched j
  · intro j
    show (s.channel.pending.erase id).contains j ↔ ∃ call, (s.channel.calls.erase id).get? j = some call ∧ _
    rw [Table.contains_erase, Table.get?_erase]
    split
    next he => simp [he]
    next he => simpa [he] using h.wanted j
  · intro first after j op body limit split begins
    show (s.channel.calls.erase id).contains j ∨ j ∈ (s.returned ++ [(id, r)]).map (·.1)
    rw [Table.contains_erase, names, List.mem_append, List.mem_singleton]
    rcases begins_concat split begins with ⟨he, _⟩ | ⟨after', split', _⟩
    · cases he
    · by_cases he : j = id
      · exact .inr (.inr he)
      · rcases h.known split' begins with hj | hr
        · exact .inl (by simp [he, hj])
        · exact .inr (.inl hr)
  · intro j r' hr
    rcases List.mem_append.mp hr with hr | hr
    · exact h.due_later _ hr
    · cases List.mem_singleton.mp hr
      obtain ⟨first, after, op, body, limit, rfl, begins, due⟩ := due
      exact ⟨first, _, op, body, limit, List.append_assoc .., begins, due.later _⟩
  · show ((s.returned ++ [(id, r)]).map (·.1)).Nodup
    rw [names, List.nodup_append]
    refine ⟨h.once, List.nodup_cons.mpr ⟨nofun, List.nodup_nil⟩, ?_⟩
    intro j hj k hk he
    rw [List.mem_singleton.mp hk] at he
    exact h.apart there (he ▸ hj)
  · intro j hj hr
    have hj : (s.channel.calls.erase id).contains j := hj
    have hr : j ∈ (s.returned ++ [(id, r)]).map (·.1) := hr
    rw [Table.contains_erase, Bool.and_eq_true] at hj
    rw [names, List.mem_append, List.mem_singleton] at hr
    rcases hr with hr | rfl
    · exact h.apart hj.2 hr
    · simp at hj

theorem Open.due_of_ends? (h : Open acts id call) {r : CallResult} (ends : call.ends? = some r) :
    ∃ first after op body limit, acts = first ++ after ∧ Begins first id op body limit ∧
      Due first after id op body limit r := by
  obtain ⟨first, after, op, body, split, begins, _, filled, failing⟩ := h.story
  refine ⟨first, after, op, body, call.limit, split, begins, ?_⟩
  unfold Call.ends? at ends
  split at ends
  next => cases ends; exact failing _ rfl
  next =>
    cases ends
    obtain ⟨mid, a, rest, parts, fresh, pending, brings⟩ := filled
    exact .replied parts fresh pending brings
  next =>
    cases ends
    obtain ⟨mid, rest, parts, fresh, pending⟩ := filled
    exact .closed parts fresh pending
  next => cases ends

theorem act_finishes_of_ends {r : CallResult} (ends : (s.channel.calls.get? id).bind Call.ends? = some r) :
    s.act (.finishes id) = ⟨{ s.channel with
      pending := s.channel.pending.erase id
      calls := s.channel.calls.erase id }, s.returned ++ [(id, r)]⟩ := by
  have turn : s.channel.finish id = ({ s.channel with
      pending := s.channel.pending.erase id
      calls := s.channel.calls.erase id }, some r) := by
    unfold finish
    rw [ends]
  show Session.mk (s.channel.finish id).1 (s.returned ++ ((s.channel.finish id).2.map fun r => (id, r)).toList) = _
  rw [turn]
  rfl

theorem act_finishes_of_waits (waits : (s.channel.calls.get? id).bind Call.ends? = none) : s.act (.finishes id) = s := by
  have turn : s.channel.finish id = (s.channel, none) := by
    unfold finish
    rw [waits]
  show Session.mk (s.channel.finish id).1 (s.returned ++ ((s.channel.finish id).2.map fun r => (id, r)).toList) = s
  rw [turn, Option.map_none, Option.toList_none, List.append_nil]

theorem sound_finishes (h : Sound acts s) (id : Nat) : Sound (acts ++ [.finishes id]) (s.act (.finishes id)) := by
  have taken_eq : taken (acts ++ [.finishes id]) = taken acts := taken_append _ _
  have begun : ∀ op body limit, Act.finishes id ≠ .calls op body limit := fun _ _ _ he => by cases he
  have quiet : (Act.finishes id).Quiet := ⟨nofun, nofun⟩
  cases ends : (s.channel.calls.get? id).bind Call.ends? with
  | none =>
    rw [act_finishes_of_waits ends]
    exact h.of_same taken_eq begun fun _ _ => quiet.untouched _
  | some r =>
    obtain ⟨call, hc, ends'⟩ := Option.bind_eq_some_iff.mp ends
    rw [act_finishes_of_ends ends]
    exact h.of_return hc ((h.opened hc).due_of_ends? ends')

end Steps

theorem sound_run (acts : List Act) (few : taken acts < UInt64.size) : Sound acts (run acts) := by
  induction acts using List.reverseRecOn with
  | nil =>
    refine ⟨rfl, nofun, ?_, ?_, nofun, List.nodup_nil, nofun⟩
    · intro id
      constructor
      · exact nofun
      · rintro ⟨_, ⟨⟩, _⟩
    · rintro first after id op body limit split ⟨before, rfl, _⟩
      simp at split
  | append_singleton acts a ih =>
    have before := ih (Nat.lt_of_le_of_lt (by rw [taken_append]; omega) few)
    rw [run_concat]
    cases a with
    | calls op body limit => exact sound_calls before (by rw [taken_append] at few; exact few) op body limit
    | tells op body => exact sound_tells before op body
    | sends id fault => exact sound_sends before id fault
    | hears bytes => exact sound_hears before bytes
    | expires id => exact sound_expires before id
    | finishes id => exact sound_finishes before id
    | closes => exact sound_closes before

end Workshare.Correlation
