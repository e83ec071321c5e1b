import Workshare.Proofs.Cluster.Hosts
import Workshare.Proofs.Cluster.Lasting

namespace Workshare

/-- The lane in whose queue a task stands, or of which it holds a worker. -/
def Hand.place? : Hand → Option (NodeId × Bool)
  | .queued p long => some (p, long)
  | .waiting p long => some (p, long)
  | .taken p long => some (p, long)
  | .running p long => some (p, long)
  | _ => none

/-- Workers of a lane in hand. -/
def Hand.workers (n : NodeId) (long : Bool) : Hand → Int
  | .taken p l => if (p, l) = (n, long) then 1 else 0
  | .running p l => if (p, l) = (n, long) then 1 else 0
  | _ => 0

theorem Hand.workers_of_place {n : NodeId} {long : Bool} {x : Hand} (off : x.place? ≠ some (n, long)) :
    x.workers n long = 0 := by
  cases x with
  | taken p l => exact if_neg fun h => off (congrArg some h)
  | running p l => exact if_neg fun h => off (congrArg some h)
  | _ => rfl

theorem Hand.place?_of {n p : NodeId} {x : Hand} (hx : x.Of p) (other : p ≠ n) (long : Bool) :
    x.place? ≠ some (n, long) := by
  intro h
  cases x with
  | queued q l => cases h; exact other hx.symm
  | waiting q l => cases h; exact other hx.symm
  | taken q l => cases h; exact other hx.symm
  | running q l => cases h; exact other hx.symm
  | _ => cases h

theorem Hand.place?_got {p : NodeId} {long got : Bool} (m : NodeId) (l : Bool) (off : (m, l) ≠ (p, long)) :
    (if got then Hand.taken p long else .waiting p long).place? ≠ some (m, l) := by
  intro e
  cases got with
  | false => exact off (Option.some.inj e).symm
  | true => exact off (Option.some.inj e).symm

theorem Task.hand_ne_waiting (task : Task) (n : NodeId) (long : Bool) : task.hand ≠ .waiting n long := by
  intro h
  have kept := task.isBrief_hand
  rw [h] at kept
  cases kept

/-- How many workers a lane is to have. -/
def PoolSettings.workers (s : PoolSettings) (long : Bool) : Nat :=
  (if long then s.longThreads else s.shortThreads).toNat

theorem PoolSettings.workers_lt (s : PoolSettings) (long : Bool) : s.workers long < UInt64.size :=
  UInt64.toNat_lt_size _

namespace Pool

theorem free_ofPool (pool : Pool) (long : Bool) : pool.free.ofPool long = (pool.lane long).free.toUInt64 := by
  cases long <;> rfl

theorem lane_start {settings : PoolSettings} {handlers : Registry} {pool : Pool}
    (h : Pool.start settings handlers = .ok pool) (long : Bool) : pool.lane long = .ofSize (settings.workers long) := by
  unfold Pool.start at h
  dsimp only at h
  split at h
  next =>
    cases h
    cases long <;> rfl
  next => cases h

theorem lane_setLane (p : Pool) (long l : Bool) (lane : Lane) :
    (p.setLane long lane).lane l = if l = long then lane else p.lane l := by
  cases long <;> cases l <;> rfl

end Pool

namespace Cluster

/-- The workers of one lane of node `n`, `size` of them, with `x` in the hands of task `own` that goes on. -/
structure Mans (c : Cluster) (n : NodeId) (long : Bool) (size : Nat) (own : Option Ticket) (x : Hand) (l : Lane) :
    Prop where
  idle : l.waiting ≠ [] → l.free = 0
  distinct : (l.waiting ++ l.granted).Nodup
  others : ∀ v ∈ l.waiting ++ l.granted, own ≠ some v → ∃ task, c.tasks.get? v = some task ∧ task.hand = .queued n long
  mine : ∀ t, own = some t → t ∈ l.waiting ++ l.granted → x = .queued n long ∨ x = .waiting n long
  refused : ∀ t, own = some t → x = .waiting n long → t ∉ l.granted
  sum : l.free + l.granted.length + c.load (Hand.workers n long) own + x.workers n long = size

variable {n : NodeId} {long : Bool} {size : Nat} {own : Option Ticket} {t : Ticket} {c c' : Cluster} {x y : Hand}
  {l : Lane}

theorem free_of_pool {pool : Pool} (h : c.executor? n = some (.pool pool)) : c.free n = pool.free := by
  unfold Cluster.free
  rw [h]
  rfl

namespace Mans

theorem free_le (h : Mans c n long size own x l) : l.free ≤ size := by
  have positive : ∀ x : Hand, 0 ≤ x.workers n long := by
    intro x
    unfold Hand.workers
    split
    next => split <;> decide
    next => split <;> decide
    next => exact Int.le_refl 0
  have sum := h.sum
  have load : 0 ≤ c.load (Hand.workers n long) own := load_nonneg positive
  have mine := positive x
  omega

theorem still (h : Mans c n long size own x l) {P : Task → Prop} (grows : Grows P c c') (dated : c.Dated)
    (young : ∀ t, own = some t → t < c.fresh) (light : ∀ task, P task → task.hand.workers n long = 0)
    (workers : y.workers n long = x.workers n long)
    (line : x = .queued n long ∨ x = .waiting n long → y = .queued n long ∨ y = .waiting n long)
    (waits : y = .waiting n long → x = .waiting n long) : Mans c' n long size own y l := by
  refine ⟨h.idle, h.distinct, ?_, ?_, ?_, ?_⟩
  · intro v hv foreign
    obtain ⟨task, ht, hand⟩ := h.others v hv foreign
    exact ⟨task, (grows.kept v (dated.young ht)).trans ht, hand⟩
  · exact fun t ht hv => line (h.mine t ht hv)
  · exact fun t ht hy => h.refused t ht (waits hy)
  · rw [grows.load dated young light, workers]
    exact h.sum

theorem aloof (h : Mans c n long size own x l) {P : Task → Prop} (grows : Grows P c c') (dated : c.Dated)
    (young : ∀ t, own = some t → t < c.fresh) (light : ∀ task, P task → task.hand.workers n long = 0)
    (hx : x.place? ≠ some (n, long)) (hy : y.place? ≠ some (n, long)) : Mans c' n long size own y l := by
  refine h.still grows dated young light ?_ ?_ ?_
  · rw [Hand.workers_of_place hx, Hand.workers_of_place hy]
  · rintro (rfl | rfl)
    · exact absurd rfl hx
    · exact absurd rfl hx
  · rintro rfl
    exact absurd rfl hy

theorem outside (h : Mans c n long size (some t) x l) (queued : x ≠ .queued n long) (waiting : x ≠ .waiting n long) :
    t ∉ l.waiting ++ l.granted := by
  intro ht
  rcases h.mine t rfl ht with h | h
  · exact queued h
  · exact waiting h

section Own

variable (tasks : c'.tasks = c.tasks) (fresh : c'.fresh = c.fresh)

include tasks fresh

theorem load_eq : c'.load (Hand.workers n long) own = c.load (Hand.workers n long) own :=
  load_congr (fun v _ _ => by rw [tasks]) fresh

theorem ask (h : Mans c n long size (some t) (.promised n long) l) :
    Mans c' n long size (some t) (if (l.ask t).2 then .taken n long else .waiting n long) (l.ask t).1 := by
  have apart := h.outside nofun nofun
  have sum := h.sum
  rw [← load_eq tasks fresh] at sum
  obtain ⟨free, waiting, granted⟩ := l
  cases free with
  | zero =>
    refine ⟨fun _ => rfl, ?_, ?_, ?_, ?_, sum⟩
    · show (waiting ++ [t] ++ granted).Nodup
      rw [List.append_assoc, List.singleton_append]
      exact List.nodup_middle.mpr (List.nodup_cons.mpr ⟨apart, h.distinct⟩)
    · intro v hv foreign
      have hv : v ∈ waiting ++ [t] ++ granted := hv
      rw [tasks]
      refine h.others v ?_ foreign
      simp only [List.mem_append, List.mem_singleton] at hv ⊢
      rcases hv with (hv | rfl) | hv
      · exact .inl hv
      · exact absurd rfl foreign
      · exact .inr hv
    · exact fun _ _ _ => .inr rfl
    · rintro _ ⟨⟩ _ hv
      exact apart (List.mem_append_right _ hv)
  | succ free =>
    have nobody : waiting = [] := by
      by_contra some
      cases h.idle some
    refine ⟨fun some => absurd nobody some, h.distinct, ?_, ?_, nofun, ?_⟩
    · intro v hv foreign
      rw [tasks]
      exact h.others v hv foreign
    · rintro _ ⟨⟩ hv
      exact absurd hv apart
    · have one : (Hand.taken n long).workers n long = 1 := if_pos rfl
      have none : (Hand.promised n long).workers n long = 0 := rfl
      show (free : Int) + granted.length + c'.load _ _ + (Hand.taken n long).workers n long = size
      rw [none] at sum
      rw [one]
      push_cast at sum
      omega

theorem collect (h : Mans c n long size (some t) (.queued n long) l) :
    Mans c' n long size (some t) (if (l.collect t).2 then .taken n long else .waiting n long) (l.collect t).1 := by
  have sum := h.sum
  rw [← load_eq tasks fresh] at sum
  unfold Lane.collect
  by_cases ht : t ∈ l.granted
  · rw [if_pos ht]
    have kept : ∀ v ∈ l.waiting ++ l.granted.erase t, v ∈ l.waiting ++ l.granted := by
      intro v hv
      rcases List.mem_append.mp hv with hv | hv
      · exact List.mem_append_left _ hv
      · exact List.mem_append_right _ (List.mem_of_mem_erase hv)
    have gone : t ∉ l.waiting ++ l.granted.erase t := by
      have apart := List.nodup_append.mp h.distinct
      intro hv
      rcases List.mem_append.mp hv with hv | hv
      · exact apart.2.2 t hv t ht rfl
      · exact (List.Nodup.mem_erase_iff apart.2.1).mp hv |>.1 rfl
    refine ⟨h.idle, h.distinct.sublist (List.Sublist.append_left List.erase_sublist _), ?_, ?_, nofun, ?_⟩
    · intro v hv foreign
      rw [tasks]
      exact h.others v (kept v hv) foreign
    · rintro _ ⟨⟩ hv
      exact absurd hv gone
    · have one : (Hand.taken n long).workers n long = 1 := if_pos rfl
      have none : (Hand.queued n long).workers n long = 0 := rfl
      have fewer := List.length_erase_of_mem ht
      have some := List.length_pos_of_mem ht
      show (l.free : Int) + (l.granted.erase t).length + c'.load _ _ + (Hand.taken n long).workers n long = size
      rw [none] at sum
      rw [one, fewer]
      omega
  · rw [if_neg ht]
    refine ⟨h.idle, h.distinct, ?_, fun _ _ _ => .inr rfl, ?_, sum⟩
    · intro v hv foreign
      rw [tasks]
      exact h.others v hv foreign
    · rintro _ ⟨⟩ _
      exact ht

/-- Whoever gives up has not been handed a worker. -/
theorem quit (h : Mans c n long size (some t) (.waiting n long) l) :
    Mans c' n long size (some t) .empty (l.quit t).1 ∧ (l.quit t).1.free = l.free := by
  have sum := h.sum
  rw [← load_eq tasks fresh] at sum
  unfold Lane.quit
  rw [if_neg (h.refused t rfl rfl)]
  refine ⟨⟨?_, ?_, ?_, ?_, nofun, sum⟩, rfl⟩
  · intro some
    refine h.idle fun none => some ?_
    show l.waiting.erase t = []
    rw [none]
    rfl
  · exact h.distinct.sublist (List.Sublist.append_right List.erase_sublist _)
  · intro v hv foreign
    rw [tasks]
    refine h.others v ?_ foreign
    rcases List.mem_append.mp hv with hv | hv
    · exact List.mem_append_left _ (List.mem_of_mem_erase hv)
    · exact List.mem_append_right _ hv
  · rintro _ ⟨⟩ hv
    have apart := List.nodup_append.mp h.distinct
    rcases List.mem_append.mp hv with hv | hv
    · exact absurd rfl ((List.Nodup.mem_erase_iff apart.1).mp hv).1
    · exact absurd hv (h.refused t rfl rfl)

theorem giveBack (h : Mans c n long size (some t) (.running n long) l) :
    Mans c' n long size (some t) (.returned n long) l.giveBack.1 := by
  have apart := h.outside nofun nofun
  have sum := h.sum
  rw [← load_eq tasks fresh] at sum
  have one : (Hand.running n long).workers n long = 1 := if_pos rfl
  have none : (Hand.returned n long).workers n long = 0 := rfl
  rw [one] at sum
  obtain ⟨free, waiting, granted⟩ := l
  dsimp only at sum
  cases waiting with
  | nil =>
    refine ⟨fun some => absurd rfl some, h.distinct, ?_, fun _ e hv => absurd hv (Option.some.inj e ▸ apart), nofun, ?_⟩
    · intro v hv foreign
      rw [tasks]
      exact h.others v hv foreign
    · show ((free + 1 : Nat) : Int) + granted.length + c'.load _ _ + (Hand.returned n long).workers n long = size
      rw [none]
      push_cast
      omega
  | cons v rest =>
    have moved : (rest ++ (granted ++ [v])).Perm (v :: rest ++ granted) := by
      rw [← List.append_assoc]
      exact List.perm_append_singleton v (rest ++ granted)
    refine ⟨?_, moved.nodup_iff.mpr h.distinct, ?_, ?_, nofun, ?_⟩
    · exact fun _ => h.idle (List.cons_ne_nil v rest)
    · intro w hw foreign
      rw [tasks]
      exact h.others w (moved.mem_iff.mp hw) foreign
    · intro w hw hv
      exact absurd (moved.mem_iff.mp hv) (Option.some.inj hw ▸ apart)
    · show (free : Int) + (granted ++ [v]).length + c'.load _ _ + (Hand.returned n long).workers n long = size
      rw [none, List.length_append, List.length_singleton]
      push_cast
      omega

end Own

theorem wait (h : Mans c n long size own (.waiting n long) l) : Mans c n long size own (.queued n long) l :=
  ⟨h.idle, h.distinct, h.others, fun _ _ _ => .inl rfl, nofun, h.sum⟩

theorem hire (h : Mans c n long size (some t) (.taken n long) l) (dated : c.Dated) (young : t < c.fresh) {task : Task}
    (runs : task.hand = .running n long) : Mans (c.spawn task).1 n long size (some t) (.awaiting n) l := by
  have owner : ∀ v, some t = some v → v < c.fresh := by rintro _ ⟨⟩; exact young
  have apart := h.outside nofun nofun
  have grows : Grows (fun _ => True) c (c.spawn task).1 := .spawn trivial
  refine ⟨h.idle, h.distinct, ?_, fun _ e hv => absurd hv (Option.some.inj e ▸ apart), nofun, ?_⟩
  · intro v hv foreign
    obtain ⟨task, ht, hand⟩ := h.others v hv foreign
    exact ⟨task, (grows.kept v (dated.young ht)).trans ht, hand⟩
  · have sum := h.sum
    have one : (Hand.taken n long).workers n long = 1 := if_pos rfl
    have held : (Hand.running n long).workers n long = 1 := if_pos rfl
    have none : (Hand.awaiting n).workers n long = 0 := rfl
    rw [load_spawn owner, runs, held, none]
    rw [one] at sum
    omega

theorem lift (h : Mans c n long size none .empty l) (dated : c.Dated) {task : Task} (ht : c.tasks.get? t = some task) :
    Mans c n long size (some t) task.hand l := by
  have apart := load_none (f := Hand.workers n long) (dated.young ht)
  rw [ht] at apart
  refine ⟨h.idle, h.distinct, fun v hv _ => h.others v hv nofun, ?_, ?_, ?_⟩
  · rintro _ ⟨⟩ hv
    obtain ⟨task', ht', hand⟩ := h.others t hv nofun
    rw [ht] at ht'
    cases ht'
    exact .inl hand
  · exact fun _ _ hand => absurd hand (task.hand_ne_waiting n long)
  · have sum := h.sum
    have none : Hand.empty.workers n long = 0 := rfl
    rw [apart, none] at sum
    show _ + _ + _ + task.hand.workers n long = _
    have same : (some task).elim 0 (fun task => task.hand.workers n long) = task.hand.workers n long := rfl
    rw [same] at sum
    omega

theorem call (h : Mans c n long size none .empty l) (dated : c.Dated) (hx : x.place? ≠ some (n, long)) :
    Mans { c with fresh := c.fresh + 1, front := some c.fresh, called := false } n long size (some c.fresh) x l := by
  refine ⟨h.idle, h.distinct, fun v hv _ => h.others v hv nofun, ?_, ?_, ?_⟩
  · rintro _ ⟨⟩ hv
    obtain ⟨task, ht, _⟩ := h.others _ hv nofun
    rw [dated _ (Nat.le_refl _)] at ht
    cases ht
  · rintro _ ⟨⟩ rfl
    exact absurd rfl hx
  · rw [load_called, Hand.workers_of_place hx]
    exact h.sum

theorem park {left : Task} (h : Mans c n long size (some t) left.hand l) (young : t < c.fresh) :
    Mans (c.park t left) n long size none .empty l := by
  have tasks : ∀ v, (c.park t left).tasks.get? v = if v = t then some left else c.tasks.get? v :=
    fun v => Table.get?_insert _ _ _ _
  refine ⟨h.idle, h.distinct, ?_, nofun, nofun, ?_⟩
  · intro v hv _
    rw [tasks]
    by_cases mine : v = t
    · rw [if_pos mine]
      rcases h.mine t rfl (mine ▸ hv) with hand | hand
      · exact ⟨left, rfl, hand⟩
      · exact absurd hand (left.hand_ne_waiting n long)
    · rw [if_neg mine]
      exact h.others v hv fun e => mine (Option.some.inj e).symm
  · rw [load_park young]
    have sum := h.sum
    have none : Hand.empty.workers n long = 0 := rfl
    rw [none]
    omega

theorem finish (h : Mans c n long size (some t) .empty l) (young : t < c.fresh) (said : Option Answer) :
    Mans (c.finish t said) n long size none .empty l := by
  have tasks : ∀ v, (c.finish t said).tasks.get? v = if v = t then none else c.tasks.get? v :=
    fun v => Table.get?_erase _ _ _
  refine ⟨h.idle, h.distinct, ?_, nofun, nofun, ?_⟩
  · intro v hv _
    have other : v ≠ t := by
      rintro rfl
      rcases h.mine v rfl hv with hand | hand <;> cases hand
    rw [tasks, if_neg other]
    exact h.others v hv fun e => other (Option.some.inj e).symm
  · rw [load_finish young]
    exact h.sum

end Mans

/-- Node `n` has a pool, and each of its workers is accounted for. -/
def Staffed (n : NodeId) (size : Bool → Nat) (own : Option Ticket) (c : Cluster) (x : Hand) : Prop :=
  ∃ pool, c.executor? n = some (.pool pool) ∧ ∀ long, Mans c n long (size long) own x (pool.lane long)

namespace Staffed

variable {sizes : Bool → Nat}

theorem same (h : Staffed n sizes own c x) {own' : Option Ticket} (executor : c'.executor? n = c.executor? n)
    (each : ∀ long l, Mans c n long (sizes long) own x l → Mans c' n long (sizes long) own' y l) :
    Staffed n sizes own' c' y := by
  obtain ⟨pool, hn, lanes⟩ := h
  exact ⟨pool, executor.trans hn, fun long => each long _ (lanes long)⟩

theorem lane (h : Staffed n sizes own c x) {α : Type} {p : NodeId} {f : Lane → Lane × α} {a : α}
    (hc : c.withLane p long f = (c', some a)) (dated : c.Dated) (young : ∀ t, own = some t → t < c.fresh)
    (hx : ∀ m l, (m, l) ≠ (p, long) → x.place? ≠ some (m, l)) (hy : ∀ m l, (m, l) ≠ (p, long) → y.place? ≠ some (m, l))
    (turn : p = n → ∀ l, (f l).2 = a → c'.tasks = c.tasks → c'.fresh = c.fresh →
      Mans c n long (sizes long) own x l → Mans c' n long (sizes long) own y (f l).1) :
    Staffed n sizes own c' y := by
  obtain ⟨pool, hn, lanes⟩ := h
  obtain ⟨host, pool', hp, executor, answer, rfl⟩ := withLane_some hc
  have aside : ∀ l, (n, l) ≠ (p, long) → ∀ lane, Mans c n l (sizes l) own x lane →
      Mans (c.setHost p { host with executor := .pool (pool'.setLane long (f (pool'.lane long)).1) }) n l (sizes l) own y
        lane :=
    fun l off lane mans => mans.aloof (P := fun _ => False) (.of_eq rfl rfl rfl) dated young (fun _ no => no.elim)
      (hx n l off) (hy n l off)
  unfold Staffed
  rw [executor?_setHost]
  by_cases here : p = n
  · subst here
    have own : pool' = pool := by
      unfold Cluster.executor? at hn
      rw [hp] at hn
      exact Executor.pool.inj (executor.symm.trans (Option.some.inj hn))
    subst own
    rw [if_pos rfl]
    refine ⟨_, rfl, fun l => ?_⟩
    rw [Pool.lane_setLane]
    split
    next e =>
      subst e
      exact turn rfl _ answer rfl rfl (lanes l)
    next off => exact aside l (fun e => off (Prod.ext_iff.mp e).2) _ (lanes l)
  · rw [if_neg (Ne.symm here)]
    exact ⟨pool, hn, fun l => aside l (fun e => here (Prod.ext_iff.mp e).1.symm) _ (lanes l)⟩

theorem apart (h : Staffed n sizes own c x) (executor : c'.executor? n = c.executor? n) (dated : c.Dated)
    (young : ∀ t, own = some t → t < c.fresh)
    (grows : ∀ long, Grows (fun task => task.hand.workers n long = 0) c c') (hx : ∀ long, x.place? ≠ some (n, long))
    (hy : ∀ long, y.place? ≠ some (n, long)) : Staffed n sizes own c' y :=
  h.same executor fun long _ mans => mans.aloof (grows long) dated young (fun _ light => light) (hx long) (hy long)

theorem still (h : Staffed n sizes own c x) (executor : c'.executor? n = c.executor? n) (dated : c.Dated)
    (young : ∀ t, own = some t → t < c.fresh)
    (grows : ∀ long, Grows (fun task => task.hand.workers n long = 0) c c') : Staffed n sizes own c' x :=
  h.same executor fun long _ mans => mans.still (grows long) dated young (fun _ light => light) rfl id id

/-- A worker is sent off with a work, here or elsewhere. -/
theorem hire {p : NodeId} {work : Work} (h : Staffed n sizes (some t) c (.taken p work.longRunning))
    (dated : c.Dated) (young : t < c.fresh) (waiter : Option Ticket) :
    Staffed n sizes (some t) (c.spawn (.runner p work waiter none)).1 (.awaiting p) := by
  refine h.same rfl fun long l mans => ?_
  by_cases here : (p, work.longRunning) = (n, long)
  · obtain ⟨rfl, rfl⟩ := Prod.ext_iff.mp here
    exact mans.hire dated young rfl
  · have foreign : (Task.runner p work waiter none).hand.workers n long = 0 := if_neg here
    refine mans.aloof (.spawn foreign) dated ?_ (fun _ light => light) (fun e => here (Option.some.inj e)) nofun
    rintro _ ⟨⟩
    exact young

theorem elsewhere (h : Staffed n sizes own c x) {p : NodeId} (bare : c.Poolless p) : p ≠ n := by
  rintro rfl
  obtain ⟨pool, hn, _⟩ := h
  exact bare pool hn

theorem wait {p : NodeId} (h : Staffed n sizes own c (.waiting p long)) (dated : c.Dated)
    (young : ∀ t, own = some t → t < c.fresh) : Staffed n sizes own c (.queued p long) := by
  refine h.same rfl fun l lane mans => ?_
  by_cases here : (p, long) = (n, l)
  · obtain ⟨rfl, rfl⟩ := Prod.ext_iff.mp here
    exact mans.wait
  · have foreign : some (p, long) ≠ some (n, l) := fun e => here (Option.some.inj e)
    exact mans.aloof (P := fun _ => False) (.refl c) dated young (fun _ no => no.elim) foreign foreign

/-- By a pace no worker comes or goes. -/
theorem pace {T : Traffic} {A : Audience} (h : Staffed n sizes (some t) c x) (dated : c.Dated) (young : t < c.fresh)
    (pace : Pace T A t (c, x) (c', y)) : Staffed n sizes (some t) c' y := by
  have owner : ∀ v, some t = some v → v < c.fresh := by rintro _ ⟨⟩; exact young
  have cast : ∀ long sender targets op body, (Task.broadcast sender targets op body).hand.workers n long = 0 :=
    fun _ _ _ _ _ => rfl
  have posted : ∀ long target op body delay, (Task.post target op body delay).hand.workers n long = 0 :=
    fun _ _ _ _ _ => rfl
  -- only the executor of a host touches a lane; whatever else happens brings tasks that hold no worker
  cases pace with
  | aside same => exact h.still (executor?_congr same.hosts n) dated owner fun _ => .aside same
  | note _ => exact h.still rfl dated owner fun _ => .of_eq rfl rfl rfl
  | spawn _ _ empty =>
    refine h.still rfl dated owner fun long => .spawn ?_
    rw [empty]
    rfl
  | ask hc =>
    refine h.lane hc dated owner nofun Hand.place?_got fun here l answer tasks fresh mans => ?_
    subst here answer
    exact mans.ask tasks fresh
  | collect hc =>
    refine h.lane hc dated owner (fun m l off e => off (Option.some.inj e).symm) Hand.place?_got
      fun here l answer tasks fresh mans => ?_
    subst here answer
    exact mans.collect tasks fresh
  | wait => exact h.wait dated owner
  | quit hc =>
    refine h.lane hc dated owner (fun m l off e => off (Option.some.inj e).symm) nofun
      fun here l _ tasks fresh mans => ?_
    subst here
    exact (mans.quit tasks fresh).1
  | hire p work waiter => exact h.hire dated young waiter
  | giveBack hc =>
    refine h.lane hc dated owner (fun m l off e => off (Option.some.inj e).symm) nofun
      fun here l _ tasks fresh mans => ?_
    subst here
    exact mans.giveBack tasks fresh
  | drop p work => exact h.apart rfl dated owner (fun _ => .of_eq rfl rfl rfl) nofun nofun
  | vain bare hx hy =>
    have other := h.elsewhere bare
    exact h.apart rfl dated owner (fun _ => .of_eq rfl rfl rfl) (Hand.place?_of hx other) (Hand.place?_of hy other)
  | handOver p mode work =>
    exact h.apart (executor?_tell _ _ _ n) dated owner (fun long => .tell (cast long) p _) nofun nofun
  | keep hc _ =>
    exact h.apart (executor?_managed hc n) dated owner (fun long => .managed (cast long) hc) nofun nofun
  | pass hc _ =>
    exact h.still (executor?_managed hc n) dated owner fun long => .managed (cast long) hc
  | reject p mode reason =>
    exact h.still (executor?_tell _ _ _ n) dated owner fun long => .tell (cast long) p _
  | report p mode _ =>
    exact h.apart (executor?_tell _ _ _ n) dated owner (fun long => .tell (cast long) p _) nofun nofun
  | complete p long success =>
    exact h.apart (executor?_tell _ _ _ n) dated owner (fun long => .tell (cast long) p _) nofun nofun
  | scripted _ _ _ => exact h.still (executor?_tell _ _ _ n) dated owner fun long => .tell (cast long) _ _
  | write p _ => exact h.apart rfl dated owner (fun _ => .of_eq rfl rfl rfl) nofun nofun
  | post sender targets _ =>
    exact h.apart (executor?_post _ _ _ _ n) dated owner (fun long => .post (posted long) _ _ _ _) nofun nofun
  | discard => exact h.apart rfl dated owner (fun _ => .of_eq rfl rfl rfl) nofun nofun
  | look p => exact h.still (executor?_tell _ _ _ n) dated owner fun long => .tell (cast long) p _
  | learn _ => exact h.still (executor?_tell _ _ _ n) dated owner fun long => .tell (cast long) _ _
  | hear _ _ _ => exact h.apart (executor?_tell _ _ _ n) dated owner (fun long => .tell (cast long) _ _) nofun nofun
  | join _ _ =>
    exact h.apart (executor?_addMember _ _ _ n) dated owner (fun long => .addMember (cast long) _ _ _) nofun nofun
  | leave _ _ =>
    exact h.apart (executor?_removeMember _ _ n) dated owner (fun long => .removeMember (cast long) _ _) nofun nofun

theorem paces {T : Traffic} {A : Audience} {s s' : Cluster × Hand} (paces : Paces T A t s s') (dated : s.1.Dated)
    (young : t < s.1.fresh) (h : Staffed n sizes (some t) s.1 s.2) :
    s'.1.Dated ∧ t < s'.1.fresh ∧ Staffed n sizes (some t) s'.1 s'.2 := by
  induction paces with
  | refl => exact ⟨dated, young, h⟩
  | tail _ last ih =>
    obtain ⟨dated, young, h⟩ := ih
    exact ⟨last.grows_any.dated dated, Nat.lt_of_lt_of_le young last.grows_any.fresh, h.pace dated young last⟩

/-- Whatever task goes on, each worker stays accounted for. -/
theorem resume (h : Staffed n sizes none c .empty) (dated : c.Dated) {task : Task} (ht : c.tasks.get? t = some task) :
    Staffed n sizes none (c.resume t task) .empty := by
  have lifted : Staffed n sizes (some t) c task.hand := h.same rfl fun _ _ mans => mans.lift dated ht
  rcases treads_any c t task with ⟨c₁, left, taken, _, _, parked⟩ | ⟨c₁, said, taken, ended⟩
  · obtain ⟨_, young, h⟩ := paces taken dated (dated.young ht) lifted
    rw [parked]
    exact h.same rfl fun _ _ mans => mans.park young
  · obtain ⟨_, young, h⟩ := paces taken dated (dated.young ht) lifted
    rw [ended]
    exact h.same rfl fun _ _ mans => mans.finish young _

end Staffed

theorem staffed_start {hosts : List (NodeId × Host)} {host : Host} {pool : Pool}
    (there : (start hosts).host? n = some host) (executor : host.executor = .pool pool)
    (fresh : ∀ long, pool.lane long = .ofSize (pool.lane long).free) :
    Staffed n (fun long => (pool.lane long).free) none (start hosts) .empty := by
  refine ⟨pool, ?_, fun long => ?_⟩
  · unfold Cluster.executor?
    rw [there, ← executor]
    rfl
  · rw [fresh long]
    refine ⟨fun some => absurd rfl some, List.nodup_nil, nofun, nofun, nofun, ?_⟩
    show ((pool.lane long).free : Int) + 0 + 0 + 0 = _
    simp

end Cluster

end Workshare
