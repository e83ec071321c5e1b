import Workshare.Proofs.Net.Calls
import Workshare.Proofs.Wire.RoundTrip

namespace Workshare.Correlation

open Session

/-- The same channel to all calls but number `j`. -/
structure Alike (j : Nat) (s t : Session) : Prop where
  next : s.channel.next = t.channel.next
  calls : ∀ id, id ≠ j → s.channel.calls.get? id = t.channel.calls.get? id
  pending : ∀ id, id ≠ j → s.channel.pending.contains id = t.channel.pending.contains id
  returned : ∀ id, id ≠ j → s.returned.filter (·.1 = id) = t.returned.filter (·.1 = id)

section Apart

variable {j : Nat} {s t : Session}

theorem Alike.refl (j : Nat) (s : Session) : Alike j s s :=
  ⟨rfl, fun _ _ => rfl, fun _ _ => rfl, fun _ _ => rfl⟩

theorem Alike.symm (h : Alike j s t) : Alike j t s :=
  ⟨h.next.symm, fun id hne => (h.calls id hne).symm, fun id hne => (h.pending id hne).symm,
    fun id hne => (h.returned id hne).symm⟩

theorem Alike.trans {u : Session} (h : Alike j s t) (h' : Alike j t u) : Alike j s u :=
  ⟨h.next.trans h'.next, fun id hne => (h.calls id hne).trans (h'.calls id hne),
    fun id hne => (h.pending id hne).trans (h'.pending id hne), fun id hne => (h.returned id hne).trans (h'.returned id hne)⟩

theorem Alike.of_calls (h : Alike j s t) {c d : Table Nat Call} (calls : ∀ id, id ≠ j → c.get? id = d.get? id) :
    Alike j { s with channel := { s.channel with calls := c } } { t with channel := { t.channel with calls := d } } :=
  ⟨h.next, calls, h.pending, h.returned⟩

theorem Alike.insert (h : Alike j s t) (id : Nat) (call : Call) :
    Alike j { s with channel := { s.channel with calls := s.channel.calls.insert id call } }
      { t with channel := { t.channel with calls := t.channel.calls.insert id call } } := by
  refine h.of_calls fun k hne => ?_
  rw [Table.get?_insert, Table.get?_insert, h.calls k hne]

theorem alike_insert (s : Session) (j : Nat) (call : Call) :
    Alike j { s with channel := { s.channel with calls := s.channel.calls.insert j call } } s := by
  refine (Alike.refl j s).of_calls fun k hne => ?_
  rw [Table.get?_insert, if_neg hne]

theorem alike_sent (s : Session) (j : Nat) (fault : Option String) :
    Alike j { s with channel := s.channel.sent j fault } s := by
  unfold sent
  split
  next =>
    split
    next => exact alike_insert s j _
    next => exact alike_insert s j _
  next => exact .refl j s

theorem alike_expire (s : Session) (j : Nat) : Alike j { s with channel := s.channel.expire j } s := by
  unfold expire
  split
  next => exact alike_insert s j _
  next => exact .refl j s

theorem alike_reply (s : Session) (j : Nat) (r : FrameResult) : Alike j { s with channel := s.channel.reply j r } s := by
  unfold reply
  split
  next =>
    refine ⟨rfl, fun id hne => ?_, fun id hne => ?_, fun _ _ => rfl⟩
    · show (s.channel.calls.mapValues _).get? id = _
      rw [Table.get?_mapValues]
      cases hc : s.channel.calls.get? id with
      | none => rfl
      | some call => rw [Option.map_some, if_neg hne]
    · show (s.channel.pending.erase j).contains id = _
      rw [Table.contains_erase, decide_eq_false hne, Bool.not_false, Bool.true_and]
  next => exact .refl j s

theorem alike_finish (s : Session) (j : Nat) : Alike j (s.act (.finishes j)) s := by
  cases ends : (s.channel.calls.get? j).bind Call.ends? with
  | none =>
    rw [act_finishes_of_waits ends]
    exact .refl j s
  | some r =>
    rw [act_finishes_of_ends ends]
    refine ⟨rfl, fun id hne => ?_, fun id hne => ?_, fun id hne => ?_⟩
    · show (s.channel.calls.erase j).get? id = _
      rw [Table.get?_erase, if_neg hne]
    · show (s.channel.pending.erase j).contains id = _
      rw [Table.contains_erase, decide_eq_false hne, Bool.not_false, Bool.true_and]
    · have other : [(j, r)].filter (·.1 = id) = [] := by simp [Ne.symm hne]
      rw [List.filter_append, other, List.append_nil]

theorem Alike.finish (h : Alike j s t) {id : Nat} (hne : id ≠ j) : Alike j (s.act (.finishes id)) (t.act (.finishes id)) := by
  have same := h.calls id hne
  cases ends : (s.channel.calls.get? id).bind Call.ends? with
  | none =>
    rw [act_finishes_of_waits ends, act_finishes_of_waits (same ▸ ends)]
    exact h
  | some r =>
    rw [act_finishes_of_ends ends, act_finishes_of_ends (same ▸ ends)]
    refine ⟨h.next, fun k hk => ?_, fun k hk => ?_, fun k hk => ?_⟩
    · show (s.channel.calls.erase id).get? k = (t.channel.calls.erase id).get? k
      rw [Table.get?_erase, Table.get?_erase, h.calls k hk]
    · show (s.channel.pending.erase id).contains k = (t.channel.pending.erase id).contains k
      rw [Table.contains_erase, Table.contains_erase, h.pending k hk]
    · rw [List.filter_append, List.filter_append, h.returned k hk]

theorem Alike.sent (h : Alike j s t) {id : Nat} (hne : id ≠ j) (fault : Option String) :
    Alike j { s with channel := s.channel.sent id fault } { t with channel := t.channel.sent id fault } := by
  unfold Correlation.sent
  rw [h.calls id hne]
  split
  next =>
    split
    next => exact h.insert id _
    next => exact h.insert id _
  next => exact h

theorem Alike.expire (h : Alike j s t) {id : Nat} (hne : id ≠ j) :
    Alike j { s with channel := s.channel.expire id } { t with channel := t.channel.expire id } := by
  unfold Correlation.expire
  rw [h.calls id hne]
  split
  next => exact h.insert id _
  next => exact h

theorem Alike.reply (h : Alike j s t) {id : Nat} (hne : id ≠ j) (r : FrameResult) :
    Alike j { s with channel := s.channel.reply id r } { t with channel := t.channel.reply id r } := by
  unfold Correlation.reply
  rw [h.pending id hne]
  split
  next =>
    refine ⟨h.next, fun k hk => ?_, fun k hk => ?_, h.returned⟩
    · show (s.channel.calls.mapValues _).get? k = (t.channel.calls.mapValues _).get? k
      rw [Table.get?_mapValues, Table.get?_mapValues, h.calls k hk]
    · show (s.channel.pending.erase _).contains k = (t.channel.pending.erase _).contains k
      rw [Table.contains_erase, Table.contains_erase, h.pending k hk]
  next => exact h

/-- What happens to one call happens to both channels alike, and if it is number `j` nobody else notices. -/
theorem Alike.at (h : Alike j s t) (f : Nat → Session → Session) (id : Nat) (near : ∀ s, Alike id (f id s) s)
    (far : id ≠ j → Alike j (f id s) (f id t)) : Alike j (f id s) (f id t) := by
  by_cases own : id = j
  · subst own
    exact ((near s).trans h).trans (near t).symm
  · exact far own

theorem Alike.act (h : Alike j s t) (a : Act) : Alike j (s.act a) (t.act a) := by
  cases a with
  | calls op body limit =>
    refine ⟨congrArg (· + 1) h.next, fun id hne => ?_, fun id hne => ?_, h.returned⟩
    · show (s.channel.calls.insert _ _).get? id = (t.channel.calls.insert _ _).get? id
      rw [Table.get?_insert, Table.get?_insert, h.next, h.calls id hne]
    · show (s.channel.pending.insert _ _).contains id = (t.channel.pending.insert _ _).contains id
      rw [Table.contains_insert, Table.contains_insert, h.next, h.pending id hne]
  | tells op body => exact ⟨congrArg (· + 1) h.next, h.calls, h.pending, h.returned⟩
  | sends id fault =>
    exact h.at (fun id s => { s with channel := s.channel.sent id fault }) id (alike_sent · id fault) (h.sent · fault)
  | hears bytes =>
    show Alike j { s with channel := s.channel.hear bytes } { t with channel := t.channel.hear bytes }
    unfold hear
    split
    next n r _ =>
      exact h.at (fun id s => { s with channel := s.channel.reply id r }) n.toNat (alike_reply · _ r) (h.reply · r)
    next => exact h
  | expires id => exact h.at (fun id s => { s with channel := s.channel.expire id }) id (alike_expire · id) h.expire
  | finishes id => exact h.at (fun id s => s.act (.finishes id)) id (alike_finish · id) h.finish
  | closes =>
    refine ⟨h.next, fun id hne => ?_, fun _ _ => rfl, h.returned⟩
    show (s.channel.calls.mapValues _).get? id = (t.channel.calls.mapValues _).get? id
    rw [Table.get?_mapValues, Table.get?_mapValues, h.calls id hne, h.pending id hne]

theorem Alike.foldl (h : Alike j s t) (acts : List Act) : Alike j (acts.foldl Session.act s) (acts.foldl Session.act t) := by
  induction acts generalizing s t with
  | nil => exact h
  | cons a acts ih => exact ih (h.act a)

end Apart

theorem reply_elsewhere {xs ys : List Act} {bytes : List UInt8} {n : UInt64} {r : FrameResult}
    (reads : Frame.codec.decode bytes = .ok (.reply n r)) : Alike n.toNat (run (xs ++ .hears bytes :: ys)) (run (xs ++ ys)) := by
  rw [run_append, run_append]
  rw [List.foldl_cons]
  refine Alike.foldl ?_ ys
  show Alike n.toNat { run xs with channel := (run xs).channel.hear bytes } (run xs)
  unfold hear
  rw [reads]
  exact alike_reply (run xs) n.toNat r

theorem reply_unwanted {xs ys : List Act} {bytes : List UInt8} {n : UInt64} {r : FrameResult}
    (reads : Frame.codec.decode bytes = .ok (.reply n r)) (unwanted : (run xs).channel.pending.contains n.toNat = false) :
    run (xs ++ .hears bytes :: ys) = run (xs ++ ys) := by
  have same : (run xs).act (.hears bytes) = run xs := by
    show { run xs with channel := (run xs).channel.hear bytes } = run xs
    unfold hear
    rw [reads]
    dsimp only
    unfold reply
    rw [if_neg (by simp [unwanted])]
  rw [run_append, run_append, List.foldl_cons, same]

/-- A call is pending if nothing came for it since it began and it has not returned. It returns at most once, and with
what is due to it. A reply makes no difference to the other calls, and none at all if its call is not pending. -/
theorem calls_answered (acts : List Act) (few : taken acts < UInt64.size) :
    (∀ id, (run acts).channel.pending.contains id ↔ (∃ first after op body limit, acts = first ++ after ∧
      Begins first id op body limit ∧ Untouched id after) ∧ id ∉ (run acts).returned.map (·.1)) ∧
    ((run acts).returned.map (·.1)).Nodup ∧
    (∀ id r, (id, r) ∈ (run acts).returned → ∃ first after op body limit, acts = first ++ after ∧
      Begins first id op body limit ∧ Due first after id op body limit r) ∧
    ∀ xs ys bytes n r, acts = xs ++ .hears bytes :: ys → Frame.codec.decode bytes = .ok (.reply n r) →
      Alike n.toNat (run acts) (run (xs ++ ys)) ∧
        ((run xs).channel.pending.contains n.toNat = false → run acts = run (xs ++ ys)) := by
  have sound := sound_run acts few
  refine ⟨fun id => ⟨fun pending => ?_, ?_⟩, sound.once, fun id r => sound.due, ?_⟩
  · obtain ⟨call, hc, empty⟩ := (sound.wanted id).mp pending
    obtain ⟨first, after, op, body, split, begins, _, filled, _⟩ := (sound.opened hc).story
    rw [empty] at filled
    exact ⟨⟨first, after, op, body, call.limit, split, begins, filled⟩,
      sound.apart (Option.isSome_iff_exists.mpr ⟨call, hc⟩)⟩
  · rintro ⟨⟨first, after, op, body, limit, split, begins, fresh⟩, out⟩
    have there := (sound.known split begins).resolve_right out
    obtain ⟨call, hc⟩ := Option.isSome_iff_exists.mp there
    obtain ⟨first', after', op', body', split', begins', _, filled, _⟩ := (sound.opened hc).story
    cases begins.unique (split.symm.trans split') begins'
    exact (sound.wanted id).mpr ⟨call, hc, filled.slot_empty fresh⟩
  · rintro xs ys bytes n r rfl reads
    exact ⟨reply_elsewhere reads, reply_unwanted reads⟩

/-- Two calls and a message between them; replies that come twice, late and for nobody. -/
def crossed : List Act :=
  [.calls 4 [1] (.ofMillis 50), .tells 5 [], .calls 4 [2] (.ofMillis 50), .sends 1 none, .sends 3 none,
    .hears (Frame.codec.write (.reply 3 (.ok [7]))), .hears (Frame.codec.write (.reply 3 (.ok [8]))),
    .hears (Frame.codec.write (.reply 2 (.error "nobody"))), .expires 1, .finishes 1,
    .hears (Frame.codec.write (.reply 1 (.ok [9]))), .finishes 3]

theorem calls_answered_crossed :
    (run crossed).returned = [(1, .error (.timeout (.ofMillis 50))), (3, .ok [7])] ∧
      (∃ first after op body limit, crossed = first ++ after ∧ Begins first 3 op body limit ∧
        Due first after 3 op body limit (.ok [7])) ∧
      run crossed = run (crossed.eraseIdx 6) := by
  have returned : (run crossed).returned = [(1, .error (.timeout (.ofMillis 50))), (3, .ok [7])] := by rfl
  obtain ⟨_, _, due, replies⟩ := calls_answered crossed (by decide)
  refine ⟨returned, due 3 _ (by rw [returned]; simp), ?_⟩
  exact (replies (crossed.take 6) (crossed.drop 7) _ 3 (.ok [8]) rfl rfl).2 rfl

theorem length_request (n : UInt64) (op : UInt16) (body : List UInt8) (expectsReply : Bool) :
    (Frame.codec.write (.request n op body expectsReply)).length = body.length + 23 := by
  show (Wire.littleEndian 4 0 ++ (Wire.littleEndian 8 n.toNat ++ (Wire.littleEndian 2 op.toNat ++
    ((Wire.littleEndian 8 body.length ++ body) ++ [_])))).length = _
  simp only [List.length_append, Wire.length_littleEndian, List.length_singleton]
  omega

theorem returned_too_large (op : UInt16) {body : List UInt8} (limit : Duration) (large : Frame.maxSize < body.length + 23) :
    (run [.calls op body limit, .sends 1 none, .finishes 1]).returned =
      [(1, .error (Frame.tooLarge (body.length + 23)))] := by
  have size := length_request 1 op body true
  have failed : (Frame.request 1 op body true).send none = .error (Frame.tooLarge (body.length + 23)) := by
    unfold Frame.send Frame.encode
    dsimp only
    rw [size, if_neg (Nat.not_le_of_lt large)]
    rfl
  have sent : (run [.calls op body limit]).channel.sent 1 none = _ := sent_of_error rfl failed
  show ((Session.mk ((run [.calls op body limit]).channel.sent 1 none) []).act (.finishes 1)).returned = _
  rw [sent]
  rfl

/-- A body that fills a datagram alone. -/
def oversized : List Act :=
  [.calls 4 (List.replicate 65507 0) (.ofMillis 50), .sends 1 none, .finishes 1]

/-- A reply that comes while the call is still being sent. -/
def overtaken : List Act :=
  [.calls 4 [] (.ofMillis 50), .hears (Frame.codec.write (.reply 1 (.ok [])))]

/-- Without any reply a call fails as if its peer had refused it; and one that has its reply has not returned yet, but is
not pending either. -/
theorem answered_by_nobody :
    ((run oversized).returned = [(1, .error (.remote "datagram of 65530 bytes exceeds the UDP limit"))] ∧
      ∀ a ∈ oversized, ∀ r, ¬ Brings 1 r a) ∧
    ((run overtaken).returned = [] ∧ (run overtaken).channel.pending.contains 1 = false) := by
  have large : Frame.maxSize < (List.replicate 65507 (0 : UInt8)).length + 23 := by
    rw [List.length_replicate]
    decide
  have text : Frame.tooLarge (65507 + 23) = .remote "datagram of 65530 bytes exceeds the UDP limit" := by decide
  have returned := returned_too_large 4 (.ofMillis 50) large
  rw [List.length_replicate, text] at returned
  refine ⟨⟨returned, ?_⟩, rfl, rfl⟩
  intro a ha r brings
  obtain ⟨bytes, n, rfl, _⟩ := brings
  have other : ∀ b ∈ oversized, ∀ bytes, b ≠ .hears bytes :=
    List.forall_mem_cons.mpr ⟨nofun, List.forall_mem_cons.mpr ⟨nofun, List.forall_mem_singleton.mpr nofun⟩⟩
  exact other _ ha bytes rfl

end Workshare.Correlation
