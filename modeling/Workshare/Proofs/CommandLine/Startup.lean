import Workshare.Node
import Workshare.Proofs.Results
import Workshare.Proofs.Text.Decimal

namespace Workshare

theorem SocketAddress.port_withPort (a : SocketAddress) (p : UInt16) : (a.withPort p).port = p := by
  cases a <;> rfl

namespace NodeSettings

theorem shiftedPort_ok {s : NodeSettings} {n : UInt16} {a : SocketAddress} :
    s.shiftedPort n = .ok a ↔
      s.bind.port.toNat + n.toNat < UInt16.size ∧ a = s.bind.withPort (s.bind.port + n) := by
  unfold shiftedPort
  split
  next room => simp [room, eq_comm]
  next full => simp [full]

theorem exists_shiftedPort (s : NodeSettings) (n : UInt16) :
    (∃ a, s.shiftedPort n = .ok a) ↔ s.bind.port.toNat + n.toNat < UInt16.size := by
  constructor
  · intro h
    obtain ⟨a, ha⟩ := h
    exact (shiftedPort_ok.mp ha).1
  · intro room
    exact ⟨_, shiftedPort_ok.mpr ⟨room, rfl⟩⟩

theorem port_shiftedPort {s : NodeSettings} {n : UInt16} {a : SocketAddress} (h : s.shiftedPort n = .ok a) :
    a.port.toNat = s.bind.port.toNat + n.toNat := by
  obtain ⟨room, rfl⟩ := shiftedPort_ok.mp h
  rw [SocketAddress.port_withPort, UInt16.toNat_add]
  exact Nat.mod_eq_of_lt room

end NodeSettings

/-- Neither lane is larger than a lane can be. -/
def PoolSettings.Fits (p : PoolSettings) : Prop :=
  p.shortThreads.toNat ≤ Pool.maxSize ∧ p.longThreads.toNat ≤ Pool.maxSize

instance PoolSettings.decidableFits (p : PoolSettings) : Decidable p.Fits :=
  inferInstanceAs (Decidable (_ ∧ _))

theorem Pool.start_iff (settings : PoolSettings) (handlers : Registry) :
    (∃ p, Pool.start settings handlers = .ok p) ↔ settings.Fits := by
  unfold Pool.start PoolSettings.Fits
  simp only [Bool.and_eq_true, decide_eq_true_eq]
  split
  next fits => simp [fits]
  next large => simp [large]

/-- A node starts with its settings exactly if its addresses exist and its pool fits; the address for requests exists
if the one for HTTP does. -/
theorem NodeSettings.cluster_iff (s : NodeSettings) :
    (∃ c, s.cluster = .ok c) ↔ s.bind.port.toNat + 1000 < UInt16.size ∧ s.pool.Fits := by
  have http := s.exists_shiftedPort 1000
  have rpc := s.exists_shiftedPort 1
  have pool := Pool.start_iff s.pool .builtin
  have thousand : (1000 : UInt16).toNat = 1000 := rfl
  have one : (1 : UInt16).toNat = 1 := rfl
  rw [thousand] at http
  rw [one] at rpc
  rw [← http, ← pool]
  unfold NodeSettings.cluster NodeSettings.host NodeSettings.rpcAddr NodeSettings.httpAddr
  constructor
  · rintro ⟨c, h⟩
    obtain ⟨host, h, _⟩ := Except.exists_of_map h
    obtain ⟨_, _, h⟩ := Except.exists_of_bind h
    obtain ⟨pool, started, h⟩ := Except.exists_of_bind h
    obtain ⟨http, shifted, _⟩ := Except.exists_of_bind h
    exact ⟨⟨http, shifted⟩, pool, started⟩
  · intro h
    obtain ⟨⟨b, hb⟩, p, hp⟩ := h
    have below := http.mp ⟨b, hb⟩
    obtain ⟨a, ha⟩ := rpc.mpr (by omega)
    simp [ha, hb, hp, Bind.bind, Except.bind, Except.map, pure, Except.pure]

namespace CommandLine

/-- An address that some text denotes. -/
def Spelled (a : SocketAddress) : Prop :=
  ∃ text, SocketAddress.read? text = some a

structure Draft.Settable (d : Draft) : Prop where
  bind : ∀ a, d.bind = some a → Spelled a
  seeds : ∀ a ∈ d.seeds, Spelled a
  timeout : ∃ n : UInt64, d.manager.requestTimeout = .ofMillis n.toNat
  wait : d.pool.startTimeout = PoolSettings.default.startTimeout

theorem spelled_of_readAddress {text : String} {a : SocketAddress} (h : readAddress text = .ok a) : Spelled a := by
  unfold readAddress at h
  cases hr : SocketAddress.read? text with
  | none => rw [hr] at h; cases h
  | some b =>
    rw [hr] at h
    cases h
    exact ⟨text, hr⟩

theorem Draft.settable_initial : Draft.initial.Settable := by
  refine ⟨fun a h => ?_, fun a h => ?_, ⟨10000, rfl⟩, rfl⟩
  · cases h
  · cases h

theorem ok_of_map {α β : Type} {r : Except Error α} {f : α → β} {b : β} (h : r.map f = .ok b) :
    ∃ a, r = .ok a ∧ f a = b := by
  cases r with
  | error => cases h
  | ok a =>
    cases h
    exact ⟨a, rfl, rfl⟩

theorem Draft.Settable.set {d d' : Draft} {name : OptionName} {value : String} (hd : d.Settable)
    (h : d.set name value = .ok d') : d'.Settable := by
  cases name with
  | bind =>
    obtain ⟨a, ha, rfl⟩ := ok_of_map h
    refine ⟨fun b hb => ?_, hd.seeds, hd.timeout, hd.wait⟩
    cases hb
    exact spelled_of_readAddress ha
  | seed =>
    obtain ⟨a, ha, rfl⟩ := ok_of_map h
    refine ⟨hd.bind, fun b hb => ?_, hd.timeout, hd.wait⟩
    rcases List.mem_append.mp hb with hb | hb
    · exact hd.seeds b hb
    · rw [List.mem_singleton.mp hb]
      exact spelled_of_readAddress ha
  | timeoutMs =>
    obtain ⟨n, _, rfl⟩ := ok_of_map h
    exact ⟨hd.bind, hd.seeds, ⟨n, rfl⟩, hd.wait⟩
  | policy | selector | shortThreads | longThreads =>
    obtain ⟨_, _, rfl⟩ := ok_of_map h
    exact ⟨hd.bind, hd.seeds, hd.timeout, hd.wait⟩

theorem Draft.Settable.apply {d d' : Draft} {item : Item} (hd : d.Settable) (h : d.apply item = .ok d') :
    d'.Settable := by
  cases item with
  | option name value =>
    cases value with
    | none => cases h
    | some value => exact hd.set h
  | noStatistics =>
    cases h
    exact ⟨hd.bind, hd.seeds, hd.timeout, hd.wait⟩
  | unknown text =>
    cases h
    exact hd

theorem Draft.Settable.foldlM {items : List Item} {d d' : Draft} (hd : d.Settable)
    (h : items.foldlM Draft.apply d = .ok d') : d'.Settable :=
  Except.foldlM_keeps (fun _ _ _ _ hd applied => hd.apply applied) hd h

def Draft.of (s : NodeSettings) : Draft :=
  ⟨some s.bind, s.seeds, s.policy, s.selector, s.manager, s.pool⟩

/-- Settings that a command line can bring: nothing bounds the port, and only zero bounds the workers. -/
structure Accepted (s : NodeSettings) : Prop where
  settable : (Draft.of s).Settable
  timeout : s.manager.requestTimeout.nanos ≠ 0
  short : s.pool.shortThreads ≠ 0
  long : s.pool.longThreads ≠ 0

theorem Draft.eq_of_finish {d : Draft} {s : NodeSettings} (h : d.finish = .ok s) :
    d = Draft.of s ∧ s.manager.requestTimeout.nanos ≠ 0 ∧ s.pool.shortThreads ≠ 0 ∧ s.pool.longThreads ≠ 0 := by
  unfold Draft.finish at h
  split at h
  next => cases h
  next bind hb =>
    split at h
    next => cases h
    next timeout =>
      split at h
      next => cases h
      next threads =>
        cases h
        unfold Draft.of
        dsimp only
        rw [← hb]
        exact ⟨rfl, timeout, fun zero => threads (.inl zero), fun zero => threads (.inr zero)⟩

theorem Draft.finish_of {s : NodeSettings} (timeout : s.manager.requestTimeout.nanos ≠ 0)
    (short : s.pool.shortThreads ≠ 0) (long : s.pool.longThreads ≠ 0) : (Draft.of s).finish = .ok s := by
  unfold Draft.finish Draft.of
  dsimp only
  rw [if_neg timeout, if_neg (by simp [short, long])]

theorem accepted_of_read {args : List String} {s : NodeSettings} (h : read args = .ok s) : Accepted s := by
  unfold read at h
  obtain ⟨d, applied, h⟩ := Except.exists_of_bind h
  have settable := Draft.settable_initial.foldlM applied
  obtain ⟨rfl, timeout, short, long⟩ := Draft.eq_of_finish h
  exact ⟨settable, timeout, short, long⟩

theorem ofText?_text (name : OptionName) : OptionName.ofText? name.text = some name := by
  cases name <;> decide

/-- Options with their values, as arguments. -/
def spelled (options : List (OptionName × String)) : List String :=
  options.flatMap fun o => [o.1.text, o.2]

def Item.ofOption (o : OptionName × String) : Item :=
  .option o.1 (some o.2)

theorem apply_ofOption (d : Draft) (name : OptionName) (value : String) :
    d.apply (.ofOption (name, value)) = d.set name value :=
  rfl

theorem items_spelled (options : List (OptionName × String)) (rest : List String) :
    items (spelled options ++ rest) = options.map Item.ofOption ++ items rest := by
  induction options with
  | nil => rfl
  | cons o options ih =>
    have first : spelled (o :: options) ++ rest = o.1.text :: o.2 :: (spelled options ++ rest) := rfl
    rw [first, items, ofText?_text]
    dsimp only
    rw [ih]
    rfl

def policyText : PolicyChoice → String
  | .always => "always"
  | .never => "never"
  | .waterMark level => "watermark:" ++ Decimal.text level.toNat

def selectorText : SelectorChoice → String
  | .firstAvailable => "first-available"
  | .maxFreeWorkers => "max-free"

theorem readWord_text (n : UInt64) : readWord (Decimal.text n.toNat) = .ok n := by
  have back : n.toNat.toUInt64 = n := UInt64.ofNat_toNat
  unfold readWord
  rw [Decimal.read_text n.toNat_lt]
  dsimp only
  rw [back]

theorem after?_append (lead cs : List Char) : after? lead (lead ++ cs) = some cs := by
  have begins : lead.isPrefixOf (lead ++ cs) := List.isPrefixOf_iff_prefix.mpr (List.prefix_append lead cs)
  unfold after?
  rw [if_pos begins, List.drop_left]

theorem readPolicy_policyText (p : PolicyChoice) : readPolicy (policyText p) = .ok p := by
  cases p with
  | always => rfl
  | never => rfl
  | waterMark level =>
    have back : level.toNat.toUInt64 = level := UInt64.ofNat_toNat
    have rest : after? "watermark:".toList (policyText (.waterMark level)).toList =
        some (Decimal.text level.toNat).toList := by
      unfold policyText
      rw [String.toList_append, after?_append]
    have other : ∀ text, after? "watermark:".toList text.toList = none → policyText (.waterMark level) ≠ text := by
      intro text none same
      rw [← same, rest] at none
      cases none
    unfold readPolicy
    rw [if_neg (other "always" (by decide)), if_neg (other "never" (by decide)), rest]
    dsimp only
    rw [String.ofList_toList, Decimal.read_text level.toNat_lt]
    dsimp only
    rw [back]

theorem readSelector_selectorText (c : SelectorChoice) : readSelector (selectorText c) = .ok c := by
  cases c <;> rfl

theorem readAddress_of_read? {text : String} {a : SocketAddress} (h : SocketAddress.read? text = some a) :
    readAddress text = .ok a := by
  unfold readAddress
  rw [h]
  rfl

theorem exists_seedTexts {seeds : List SocketAddress} (h : ∀ a ∈ seeds, Spelled a) :
    ∃ texts : List String, ∀ d : Draft, ((texts.map (.seed, ·)).map Item.ofOption).foldlM Draft.apply d =
      .ok { d with seeds := d.seeds ++ seeds } := by
  induction seeds with
  | nil =>
    refine ⟨[], fun d => ?_⟩
    rw [List.append_nil]
    rfl
  | cons a seeds ih =>
    obtain ⟨text, ht⟩ := h a List.mem_cons_self
    obtain ⟨texts, hts⟩ := ih fun b hb => h b (List.mem_cons_of_mem a hb)
    refine ⟨text :: texts, fun d => ?_⟩
    have first : d.apply (Item.ofOption (.seed, text)) = .ok { d with seeds := d.seeds ++ [a] } := by
      unfold Item.ofOption Draft.apply Draft.set
      dsimp only
      rw [readAddress_of_read? ht]
      rfl
    rw [List.map_cons, List.map_cons, List.foldlM_cons, first]
    show ((texts.map (.seed, ·)).map Item.ofOption).foldlM Draft.apply { d with seeds := d.seeds ++ [a] } = _
    rw [hts]
    simp

/-- The options with one value each, the timeout being `n` milliseconds. -/
def singleOptions (s : NodeSettings) (n : UInt64) : List (OptionName × String) :=
  [(.policy, policyText s.policy), (.selector, selectorText s.selector), (.timeoutMs, Decimal.text n.toNat),
    (.shortThreads, Decimal.text s.pool.shortThreads.toNat), (.longThreads, Decimal.text s.pool.longThreads.toNat)]

theorem foldlM_singleOptions (s : NodeSettings) (n : UInt64) (d : Draft) :
    ((singleOptions s n).map Item.ofOption).foldlM Draft.apply d =
      .ok ⟨d.bind, d.seeds, s.policy, s.selector, { d.manager with requestTimeout := .ofMillis n.toNat },
        { d.pool with shortThreads := s.pool.shortThreads, longThreads := s.pool.longThreads }⟩ := by
  simp only [singleOptions, List.map_cons, List.map_nil, List.foldlM_cons, List.foldlM_nil, apply_ofOption, Draft.set,
    readPolicy_policyText, readSelector_selectorText, readWord_text, Except.map, Bind.bind, Except.bind, pure,
    Except.pure]

def statisticsFlag (enabled : Bool) : List String :=
  if enabled then [] else ["--no-statistics"]

theorem foldlM_statisticsFlag (enabled : Bool) (d : Draft) (h : d.manager.statisticsEnabled = true) :
    (items (statisticsFlag enabled)).foldlM Draft.apply d = .ok { d with manager.statisticsEnabled := enabled } := by
  cases enabled with
  | true =>
    have same : d = { d with manager.statisticsEnabled := true } := by rw [← h]
    exact congrArg Except.ok same
  | false => rfl

theorem Accepted.exists_read {s : NodeSettings} (h : Accepted s) : ∃ args, read args = .ok s := by
  obtain ⟨b, hb⟩ := h.settable.bind s.bind rfl
  obtain ⟨texts, hts⟩ := exists_seedTexts h.settable.seeds
  obtain ⟨n, hn⟩ := h.settable.timeout
  refine ⟨spelled ((.bind, b) :: (texts.map (.seed, ·) ++ singleOptions s n)) ++
    statisticsFlag s.manager.statisticsEnabled, ?_⟩
  have first : Draft.initial.apply (.ofOption (.bind, b)) = .ok { Draft.initial with bind := some s.bind } := by
    rw [apply_ofOption, Draft.set, readAddress_of_read? hb]
    rfl
  have done : (items (spelled ((.bind, b) :: (texts.map (.seed, ·) ++ singleOptions s n)) ++
      statisticsFlag s.manager.statisticsEnabled)).foldlM Draft.apply .initial = .ok (Draft.of s) := by
    rw [items_spelled, List.map_cons, List.map_append, List.cons_append, List.foldlM_cons, first]
    simp only [Bind.bind, Except.bind, List.foldlM_append, hts, foldlM_singleOptions]
    rw [foldlM_statisticsFlag _ _ rfl]
    have timeout : Duration.ofMillis n.toNat = s.manager.requestTimeout := hn.symm
    have wait : Draft.initial.pool.startTimeout = s.pool.startTimeout := h.settable.wait.symm
    rw [timeout, wait]
    rfl
  unfold read
  rw [done]
  exact Draft.finish_of h.timeout h.short h.long

/-- Exactly these settings are ever read. -/
theorem exists_read_iff (s : NodeSettings) : (∃ args, read args = .ok s) ↔ Accepted s := by
  constructor
  · intro h
    obtain ⟨args, h⟩ := h
    exact accepted_of_read h
  · exact Accepted.exists_read

end CommandLine

/-- What an accepted command line leaves open. Its timeout is not zero and no pool is empty, and the addresses that
exist are all different. They all exist if a thousand more than the port is still a port, the pool can be made if it
fits, and the node starts if both holds. -/
theorem NodeSettings.startup_of_read {args : List String} {s : NodeSettings} (h : CommandLine.read args = .ok s) :
    s.manager.requestTimeout.nanos ≠ 0 ∧ s.pool.shortThreads ≠ 0 ∧ s.pool.longThreads ≠ 0 ∧
      ((∃ a, s.rpcAddr = .ok a) ↔ s.bind.port.toNat + 1 < UInt16.size) ∧
      ((∃ a, s.httpAddr = .ok a) ↔ s.bind.port.toNat + 1000 < UInt16.size) ∧
      (∀ rpc, s.rpcAddr = .ok rpc → rpc ≠ s.bind) ∧
      (∀ http, s.httpAddr = .ok http → http ≠ s.bind ∧ s.rpcAddr ≠ .ok http) ∧
      (∀ handlers, (∃ p, Pool.start s.pool handlers = .ok p) ↔ s.pool.Fits) ∧
      ((∃ c, s.cluster = .ok c) ↔ s.bind.port.toNat + 1000 < UInt16.size ∧ s.pool.Fits) := by
  have accepted := CommandLine.accepted_of_read h
  have one : (1 : UInt16).toNat = 1 := rfl
  have thousand : (1000 : UInt16).toNat = 1000 := rfl
  refine ⟨accepted.timeout, accepted.short, accepted.long, s.exists_shiftedPort 1, s.exists_shiftedPort 1000, ?_, ?_,
    Pool.start_iff s.pool, s.cluster_iff⟩
  · intro rpc hr same
    have port := port_shiftedPort hr
    rw [same, one] at port
    omega
  · intro http hh
    have port := port_shiftedPort hh
    rw [thousand] at port
    refine ⟨fun same => ?_, fun hr => ?_⟩
    · rw [same] at port
      omega
    · have other := port_shiftedPort hr
      rw [one] at other
      omega

/-- What the least command line with this port asks for. -/
def NodeSettings.atPort (port : UInt16) : NodeSettings :=
  ⟨.v4 0x7F000001 port, [], .always, .firstAvailable, .default, .default⟩

/-- The last port with which a node starts. -/
theorem NodeSettings.startup_of_read_last :
    CommandLine.read ["--bind", "127.0.0.1:64535"] = .ok (atPort 64535) ∧ ∃ c, (atPort 64535).cluster = .ok c := by
  have accepted : CommandLine.read ["--bind", "127.0.0.1:64535"] = .ok (atPort 64535) := rfl
  obtain ⟨_, _, _, _, _, _, _, _, starts⟩ := startup_of_read accepted
  exact ⟨accepted, starts.mpr (by decide)⟩

/-- An accepted port may leave no room for the other addresses, and accepted workers may be too many for a pool. -/
theorem NodeSettings.accepted_beyond_room :
    (CommandLine.read ["--bind", "127.0.0.1:65535"] = .ok (atPort 65535) ∧
      (atPort 65535).rpcAddr = .error .sumOverflow ∧ (atPort 65535).httpAddr = .error .sumOverflow) ∧
    ∃ s, CommandLine.read ["--bind", "127.0.0.1:5000", "--short-threads", "2305843009213693952"] = .ok s ∧
      ∀ handlers, Pool.start s.pool handlers = .error Pool.tooLarge := by
  constructor
  · exact ⟨rfl, rfl, rfl⟩
  · refine ⟨{ atPort 5000 with pool.shortThreads := 2305843009213693952 }, rfl, fun handlers => ?_⟩
    rfl

end Workshare
