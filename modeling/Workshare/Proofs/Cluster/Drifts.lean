import Workshare.Proofs.Cluster.Deeds
import Workshare.Proofs.Cluster.Paces

namespace Workshare

/-- A deed by which a manager does not learn of members but through its transport. -/
def Deed.isInner : Deed → Bool
  | .move _ x _ => x.isInner
  | _ => true

/-- What may happen to the hosts of a cluster: any deed, a message from anywhere, and a view of any content. -/
inductive Occurrence
  | deed (d : Deed) (inner : d.isInner)
  | message (n : NodeId) (op : UInt16) (body : List UInt8)
  | view (n : NodeId) (members : List (NodeId × String))

/-- On which terms a cluster runs: the comings and goings that a host is told of by messages and by views, the notices
that it hears, the requests that come from outside, and what is done to its manager and its executor. Nodes can start
and stop on any terms. -/
structure Terms where
  served : NodeId → Request String → Prop
  views : NodeId → List (NodeId × String) → Prop
  audience : Audience
  letters : NodeId → Request String → Prop
  moves : NodeId → Move → Prop
  executors : NodeId → Executor → Executor → Prop
  entering : ∀ p, served p (.join p p.text)
  viewing : ∀ p (names : List String), views p (names.map fun name => (⟨name⟩, name))
  asking : ∀ p q long free, p ≠ q → audience.hears p (.free q long free)
  dialling : ∀ p, moves p .connect ∧ moves p .disconnect
  keeping : ∀ p x, executors p x x

def Terms.any : Terms where
  served _ _ := True
  views _ _ := True
  audience := .any
  letters _ _ := True
  moves _ _ := True
  executors _ _ _ := True
  entering _ := trivial
  viewing _ _ := trivial
  asking _ _ _ _ _ := trivial
  dialling _ := ⟨trivial, trivial⟩
  keeping _ _ := trivial

/-- Nothing is known of messages but of whom they bring and take away. -/
def Terms.traffic (W : Terms) : Traffic where
  cast _ := True
  sent _ _ := True
  served := W.served

/-- A message on these terms that a host is about to serve. -/
def Terms.Serves (W : Terms) (p : NodeId) (op : UInt16) (body : List UInt8) : Prop :=
  W.traffic.Allows p op body ∧ Heeds W.audience p op body

namespace Cluster

def summon (c : Cluster) (task : Task) : Cluster :=
  { c with fresh := c.fresh + 1, front := some c.fresh, called := false }.resume c.fresh task

def undergo (c : Cluster) : Occurrence → Cluster
  | .deed d _ => c.does d
  | .message n op body => c.summon (.serve n op body)
  | .view n members => c.onView n members

/-- The last half of a stop: the book is emptied, and everybody else leaves the manager. -/
def depart (c : Cluster) (p : NodeId) : Cluster :=
  (c.withBook p fun b => (b.clear, [])).1.tell p (·.disband)

/-- One small change of a cluster while no task goes on. -/
inductive Drift (W : Terms) : Cluster → Cluster → Prop
  | aside {c c' : Cluster} : Aside c c' → Drift W c c'
  | spawn {c : Cluster} {task : Task} : task.Carries W.traffic → task.Heeds W.audience → task.hand = .empty →
      Drift W c (c.spawn task).1
  | network {c : Cluster} (net : Loopback) : Drift W c { c with net := net }
  | view {c : Cluster} {p : NodeId} {members : List (NodeId × String)} : W.views p members → Drift W c (c.onView p members)
  | enter {c : Cluster} (p : NodeId) : Drift W c (c.addMember p p p.text)
  | broadcast {c : Cluster} (p : NodeId) {r : Request String} : r.notice? = none → Drift W c (c.broadcast p r)
  | post {c : Cluster} (p : NodeId) (targets : List String) {r : Request String} : r.notice? = none →
      Drift W c (c.post p targets (r.encode .string).1 (r.encode .string).2)
  | move {c : Cluster} {p : NodeId} {x : Move} : W.moves p x → x.isSubmission = false → x.isInner →
      Drift W c (c.tell p (·.move x))
  | announce {c : Cluster} (p : NodeId) : Drift W c (c.tell p (·.announceAll (c.free p)))
  | depart {c : Cluster} (p : NodeId) : Drift W c (c.depart p)
  | alter {c : Cluster} {p : NodeId} {f : Host → Host} : (∀ h, (f h).manager = h.manager) →
      (∀ h, (f h).book = h.book) → (∀ h, W.executors p h.executor (f h).executor) → Drift W c (c.alter p f)

def Drifts (W : Terms) : Cluster → Cluster → Prop :=
  Relation.ReflTransGen (Drift W)

variable {W : Terms} {c c' c'' : Cluster}

namespace Drifts

theorem refl (c : Cluster) : Drifts W c c :=
  Relation.ReflTransGen.refl

theorem single (h : Drift W c c') : Drifts W c c' :=
  Relation.ReflTransGen.single h

theorem trans (h : Drifts W c c') (h' : Drifts W c' c'') : Drifts W c c'' :=
  Relation.ReflTransGen.trans h h'

theorem wakeAll (vs : List Ticket) : Drifts W c (c.wakeAll vs) :=
  single (.aside (.wakeAll c vs))

theorem foldl {β : Type} {step : Cluster → β → Cluster} (xs : List β) (hstep : ∀ c x, Drifts W c (step c x)) :
    Drifts W c (xs.foldl step c) := by
  induction xs generalizing c with
  | nil => exact refl c
  | cons x xs ih => exact (hstep c x).trans ih

/-- Everybody who is connected gets the list of all who are. -/
theorem publishView : Drifts W c c.publishView :=
  foldl _ fun c name => single (.view (W.viewing ⟨name⟩ c.net.connected.keys))

theorem startNode (p : NodeId) : Drifts W c (c.startNode p) := by
  have told : Drifts W c (c.tell p (·.connect.1)) := single (.move (x := .connect) (W.dialling p).1 rfl rfl)
  unfold Cluster.startNode
  revert told
  generalize c.tell p (·.connect.1) = c₁
  intro told
  have wired : Drifts W c₁ { c₁ with net := c₁.net.connect p.text } := single (.network _)
  have met : Drifts W c₁ (c₁.connect p) :=
    (wired.trans publishView).trans ((single (.enter p)).trans (single (.broadcast p rfl)))
  exact (told.trans met).trans (single (.announce p))

theorem stopNode (p : NodeId) : Drifts W c (c.stopNode p) := by
  have told : Drifts W c (c.tell p (·.disconnect)) := single (.move (x := .disconnect) (W.dialling p).2 rfl rfl)
  unfold Cluster.stopNode
  revert told
  generalize c.tell p (·.disconnect) = c₁
  intro told
  unfold Cluster.disconnect
  split
  next hn =>
    unfold Cluster.tell manage
    rw [hn]
    exact told
  next host _ =>
    have posted : Drifts W c₁ (c₁.post p host.book.peerAddresses (Request.encode .string (.leave p)).1
        (Request.encode .string (.leave p)).2) := single (.post p _ rfl)
    revert posted
    dsimp only
    generalize c₁.post p host.book.peerAddresses _ _ = c₂
    intro posted
    refine Drifts.trans ?_ (single (.depart p))
    refine (told.trans posted).trans ?_
    split
    next =>
      have cut : Drifts W c₂ { c₂ with net := c₂.net.disconnect p.text } := single (.network _)
      exact cut.trans publishView
    next => exact refl _

end Drifts

/-- Nobody asks for a coming or a going. -/
theorem carries_wish {T : Traffic} (w : Wish) (now : Nat) : (w.task now).Carries T := by
  cases w with
  | submit o => trivial
  | ping host peer => exact allowed_encode rfl
  | free host peer long => exact allowed_encode (plain_freeRequest long)
  | handle host work => trivial

theorem heeds_wish {A : Audience} (w : Wish) (now : Nat) : (w.task now).Heeds A := by
  cases w with
  | submit o => trivial
  | ping host peer => exact ⟨calls_encode rfl, trivial⟩
  | free host peer long => exact ⟨calls_encode (by cases long <;> rfl), trivial⟩
  | handle host work => trivial

theorem hand_wish (w : Wish) (now : Nat) : (w.task now).hand = .empty := by
  cases w <;> rfl

/-- A deed in which no task goes on is made of drifts. -/
theorem drifts_does {d : Deed} (inner : d.isInner) (free : ∀ w, d ≠ .begin w) (idle : ∀ t, d ≠ .go t)
    (moves : ∀ p x other, d = .move p x other → W.moves p x)
    (executors : ∀ p e, d = .executor p e → ∀ x, W.executors p x e) : Drifts W c (c.does d) := by
  cases d with
  | later w => exact .single (.spawn (carries_wish w c.now) (heeds_wish w c.now) (hand_wish w c.now))
  | begin w => exact absurd rfl (free w)
  | go t => exact absurd rfl (idle t)
  | clock now timers => exact .single (.aside ⟨rfl, rfl, rfl, rfl, rfl, rfl⟩)
  | queue ready front called => exact .single (.aside ⟨rfl, rfl, rfl, rfl, rfl, rfl⟩)
  | network net => exact .single (.network net)
  | start p => exact .startNode p
  | stop p => exact .stopNode p
  | move p x other => exact .single (.move (moves p x other rfl) other inner)
  | executor p e => exact .single (.alter (fun _ => rfl) (fun _ => rfl) fun h => executors p e rfl h.executor)
  | timeout p limit => exact .single (.alter (fun _ => rfl) (fun _ => rfl) fun h => W.keeping p h.executor)
  | release count =>
    have gated : Drifts W c { c with gate := (c.gate.giveMany count).1 } := .single (.aside ⟨rfl, rfl, rfl, rfl, rfl, rfl⟩)
    exact gated.trans (.wakeAll _)

end Cluster

end Workshare
