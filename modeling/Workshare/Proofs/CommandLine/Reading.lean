import Mathlib.Data.List.Induction
import Workshare.Proofs.CommandLine.Startup

namespace Workshare.CommandLine

/-- An argument that is no option and not the flag. -/
def Unknown (text : String) : Prop :=
  (∀ name : OptionName, name.text ≠ text) ∧ text ≠ "--no-statistics"

/-- How arguments are read: an option with the next argument, whatever that looks like, and everything else alone. -/
inductive Reading : List String → List Item → Prop
  | done : Reading [] []
  | option {rest : List String} {is : List Item} (name : OptionName) (value : String) :
      Reading rest is → Reading (name.text :: value :: rest) (.option name (some value) :: is)
  | cut (name : OptionName) : Reading [name.text] [.option name none]
  | flag {rest : List String} {is : List Item} :
      Reading rest is → Reading ("--no-statistics" :: rest) (.noStatistics :: is)
  | unknown {text : String} {rest : List String} {is : List Item} :
      Unknown text → Reading rest is → Reading (text :: rest) (.unknown text :: is)

theorem text_of_ofText? {text : String} {name : OptionName} (h : OptionName.ofText? text = some name) :
    name.text = text := by
  have found := List.find?_some h
  simpa using found

theorem ofText?_none {text : String} : OptionName.ofText? text = none ↔ ∀ name : OptionName, name.text ≠ text := by
  constructor
  · intro h name same
    rw [← same, ofText?_text] at h
    cases h
  · intro h
    cases hn : OptionName.ofText? text with
    | none => rfl
    | some name => exact absurd (text_of_ofText? hn) (h name)

theorem items_unknown {text : String} (h : Unknown text) (rest : List String) :
    items (text :: rest) = .unknown text :: items rest := by
  rw [items, ofText?_none.mpr h.1]
  dsimp only
  rw [if_neg h.2]

theorem reading_items (args : List String) : Reading args (items args) := by
  fun_induction items args with
  | case1 => exact .done
  | case2 a name h =>
    rw [← text_of_ofText? h]
    exact .cut name
  | case3 a name h v rest ih =>
    rw [← text_of_ofText? h]
    exact .option name v ih
  | case4 a rest h ih =>
    split
    next flag =>
      rw [flag]
      exact .flag ih
    next other => exact .unknown ⟨ofText?_none.mp h, other⟩ ih

/-- There is one way to read a line. -/
theorem reading_iff {args : List String} {is : List Item} : Reading args is ↔ is = items args := by
  constructor
  · intro h
    induction h with
    | done => rfl
    | option name value _ ih =>
      rw [items, ofText?_text, ih]
    | cut name =>
      rw [items, ofText?_text]
    | flag _ ih =>
      rw [items, ih]
      rfl
    | unknown other _ ih => rw [items_unknown other, ih]
  · intro h
    rw [h]
    exact reading_items args

example : items ["--policy", "--bind", "--verbose", "--seed"] =
    [.option .policy (some "--bind"), .unknown "--verbose", .option .seed none] := by
  decide

/-- What a reader has against its text. -/
def objection? {α : Type} : Except Error α → Option Error
  | .ok _ => none
  | .error e => some e

/-- What is wrong with a value for an option. -/
def OptionName.fault? (name : OptionName) (value : String) : Option Error :=
  match name with
  | .bind | .seed => objection? (readAddress value)
  | .policy => objection? (readPolicy value)
  | .selector => objection? (readSelector value)
  | .timeoutMs | .shortThreads | .longThreads => objection? (readWord value)

/-- What is wrong with an item; only options can be at fault. -/
def Item.fault? : Item → Option Error
  | .option name (some value) => name.fault? value
  | .option name none => some (.missingValue name.text)
  | .noStatistics => none
  | .unknown _ => none

def Item.value? (name : OptionName) : Item → Option String
  | .option other value => if other = name then value else none
  | .noStatistics => none
  | .unknown _ => none

def given (name : OptionName) (is : List Item) : List String :=
  is.filterMap (Item.value? name)

/-- What the last value says, or else the default. -/
def latest {α : Type} (read : String → Except Error α) (default : α) (values : List String) : Except Error α :=
  values.getLast?.elim (.ok default) read

def defaultTimeout : UInt64 :=
  10000

/-- The settings hold what an option with these values asks for: the last value counts, and of seeds all do. -/
def Draft.Holds (d : Draft) (values : List String) : OptionName → Prop
  | .bind => latest (fun v => (readAddress v).map some) none values = .ok d.bind
  | .seed => values.map readAddress = d.seeds.map .ok
  | .policy => latest readPolicy .always values = .ok d.policy
  | .selector => latest readSelector .firstAvailable values = .ok d.selector
  | .timeoutMs => ∃ n, latest readWord defaultTimeout values = .ok n ∧ d.manager.requestTimeout = .ofMillis n.toNat
  | .shortThreads => latest readWord PoolSettings.default.shortThreads values = .ok d.pool.shortThreads
  | .longThreads => latest readWord PoolSettings.default.longThreads values = .ok d.pool.longThreads

/-- What items ask for; what no option sets is as it is by default. -/
structure Asks (is : List Item) (d : Draft) : Prop where
  options : ∀ name, d.Holds (given name is) name
  statistics : d.manager.statisticsEnabled = true ↔ .noStatistics ∉ is
  wait : d.pool.startTimeout = PoolSettings.default.startTimeout

theorem given_concat (name : OptionName) (is : List Item) (i : Item) :
    given name (is ++ [i]) = given name is ++ (i.value? name).toList := by
  unfold given
  rw [List.filterMap_append]
  cases h : i.value? name with
  | none => rw [List.filterMap_cons_none h]; rfl
  | some v => rw [List.filterMap_cons_some h]; rfl

theorem given_silent {name : OptionName} {i : Item} (h : i.value? name = none) (is : List Item) :
    given name (is ++ [i]) = given name is := by
  rw [given_concat, h]
  exact List.append_nil _

theorem latest_concat {α : Type} (read : String → Except Error α) (default : α) (values : List String) (v : String) :
    latest read default (values ++ [v]) = read v := by
  unfold latest
  rw [List.getLast?_concat]
  rfl

theorem map_error {α β : Type} {r : Except Error α} {f : α → β} {e : Error} (h : objection? r = some e) :
    r.map f = .error e := by
  cases r with
  | ok a => cases h
  | error e' => cases h; rfl

theorem exists_map_ok {α β : Type} {r : Except Error α} {f : α → β} (h : objection? r = none) : ∃ b, r.map f = .ok b := by
  cases r with
  | ok a => exact ⟨f a, rfl⟩
  | error e => cases h

namespace Draft

variable {d d' : Draft} {name other : OptionName} {value : String} {values : List String} {is : List Item} {i : Item}

theorem apply_error {e : Error} (h : i.fault? = some e) (d : Draft) : d.apply i = .error e := by
  cases i with
  | option name value =>
    cases value with
    | none => cases h; rfl
    | some value => cases name <;> exact map_error h
  | noStatistics => cases h
  | unknown text => cases h

theorem exists_apply (h : i.fault? = none) (d : Draft) : ∃ d', d.apply i = .ok d' := by
  cases i with
  | option name value =>
    cases value with
    | none => cases h
    | some value => cases name <;> exact exists_map_ok h
  | noStatistics => exact ⟨_, rfl⟩
  | unknown text => exact ⟨d, rfl⟩

/-- The first fault is told, whatever the settings are by then. -/
theorem foldlM_fault {e : Error} (h : is.findSome? Item.fault? = some e) (d : Draft) :
    is.foldlM Draft.apply d = .error e := by
  induction is generalizing d with
  | nil => cases h
  | cons i is ih =>
    rw [List.findSome?_cons] at h
    rw [List.foldlM_cons]
    cases hi : i.fault? with
    | some e' =>
      rw [hi] at h
      cases h
      rw [apply_error hi]
      rfl
    | none =>
      rw [hi] at h
      obtain ⟨d', hd⟩ := exists_apply hi d
      rw [hd]
      exact ih h d'

/-- The last value is what counts, and one more seed is one more. -/
theorem holds_set (h : d.set name value = .ok d') (old : d.Holds values name) : d'.Holds (values ++ [value]) name := by
  cases name with
  | bind =>
    obtain ⟨a, ha, rfl⟩ := ok_of_map h
    exact (latest_concat _ _ _ _).trans (by rw [ha]; rfl)
  | seed =>
    obtain ⟨a, ha, rfl⟩ := ok_of_map h
    have before : values.map readAddress = d.seeds.map .ok := old
    show (values ++ [value]).map readAddress = (d.seeds ++ [a]).map .ok
    rw [List.map_append, List.map_append, before, List.map_singleton, List.map_singleton, ha]
  | policy =>
    obtain ⟨p, hp, rfl⟩ := ok_of_map h
    exact (latest_concat _ _ _ _).trans hp
  | selector =>
    obtain ⟨c, hc, rfl⟩ := ok_of_map h
    exact (latest_concat _ _ _ _).trans hc
  | timeoutMs =>
    obtain ⟨n, hn, rfl⟩ := ok_of_map h
    exact ⟨n, (latest_concat _ _ _ _).trans hn, rfl⟩
  | shortThreads =>
    obtain ⟨n, hn, rfl⟩ := ok_of_map h
    exact (latest_concat _ _ _ _).trans hn
  | longThreads =>
    obtain ⟨n, hn, rfl⟩ := ok_of_map h
    exact (latest_concat _ _ _ _).trans hn

/-- An option sets its own field only. -/
theorem holds_other (h : d.set name value = .ok d') (different : other ≠ name) (old : d.Holds values other) :
    d'.Holds values other := by
  cases name <;> obtain ⟨_, _, rfl⟩ := ok_of_map h <;> cases other <;> first | exact old | exact absurd rfl different

end Draft

theorem Draft.asks_initial : Asks [] .initial := by
  refine ⟨fun name => ?_, by simp [Draft.initial, ManagerSettings.default], rfl⟩
  cases name with
  | timeoutMs => exact ⟨10000, rfl, rfl⟩
  | bind | seed | policy | selector | shortThreads | longThreads => rfl

namespace Asks

variable {d d' : Draft} {is : List Item} {i : Item}

theorem apply (h : Asks is d) (hd : d.apply i = .ok d') : Asks (is ++ [i]) d' := by
  have flag {j : Item} (other : .noStatistics ≠ j) : .noStatistics ∉ is ++ [j] ↔ .noStatistics ∉ is := by
    simp [other]
  cases i with
  | option name value =>
    cases value with
    | none => cases hd
    | some value =>
      have set : d.set name value = .ok d' := hd
      refine ⟨fun other => ?_, ?_, ?_⟩
      · by_cases same : other = name
        · subst same
          have there : (Item.option other (some value)).value? other = some value := if_pos rfl
          rw [given_concat, there]
          exact Draft.holds_set set (h.options other)
        · have nothing : (Item.option name (some value)).value? other = none := if_neg (Ne.symm same)
          rw [given_silent nothing]
          exact Draft.holds_other set same (h.options other)
      · rw [flag (by simp), ← h.statistics]
        cases name <;> obtain ⟨_, _, rfl⟩ := ok_of_map set <;> rfl
      · rw [← h.wait]
        cases name <;> obtain ⟨_, _, rfl⟩ := ok_of_map set <;> rfl
  | noStatistics =>
    cases hd
    refine ⟨fun name => ?_, by simp, h.wait⟩
    have kept := h.options name
    rw [given_silent rfl]
    cases name <;> exact kept
  | unknown text =>
    cases hd
    refine ⟨fun name => ?_, ?_, h.wait⟩
    · rw [given_silent rfl]
      exact h.options name
    · rw [flag (by simp)]
      exact h.statistics

end Asks

/-- Items without a fault are all taken over. -/
theorem exists_asks {is : List Item} (sound : ∀ i ∈ is, i.fault? = none) :
    ∃ d, is.foldlM Draft.apply .initial = .ok d ∧ Asks is d := by
  induction is using List.reverseRecOn with
  | nil => exact ⟨.initial, rfl, Draft.asks_initial⟩
  | append_singleton is i ih =>
    obtain ⟨d, hd, asks⟩ := ih fun j hj => sound j (List.mem_append_left _ hj)
    obtain ⟨d', hd'⟩ := Draft.exists_apply (sound i (List.mem_append_right _ (List.mem_singleton_self i))) d
    refine ⟨d', ?_, asks.apply hd'⟩
    rw [List.foldlM_append, hd]
    show [i].foldlM Draft.apply d = _
    rw [List.foldlM_cons, hd']
    rfl

/-- Items from which settings come. -/
structure Accepts (is : List Item) : Prop where
  sound : ∀ i ∈ is, i.fault? = none
  bind : given .bind is ≠ []
  timeout : latest readWord defaultTimeout (given .timeoutMs is) ≠ .ok 0
  short : latest readWord PoolSettings.default.shortThreads (given .shortThreads is) ≠ .ok 0
  long : latest readWord PoolSettings.default.longThreads (given .longThreads is) ≠ .ok 0

/-- Why items are refused: the first fault goes before everything else, and then the three checks go one after the other. -/
inductive Refuses (is : List Item) : Error → Prop
  | fault {e : Error} : is.findSome? Item.fault? = some e → Refuses is e
  | bindRequired : is.findSome? Item.fault? = none → given .bind is = [] → Refuses is .bindRequired
  | zeroTimeout : is.findSome? Item.fault? = none → given .bind is ≠ [] →
      latest readWord defaultTimeout (given .timeoutMs is) = .ok 0 → Refuses is .zeroTimeout
  | zeroThreads : is.findSome? Item.fault? = none → given .bind is ≠ [] →
      latest readWord defaultTimeout (given .timeoutMs is) ≠ .ok 0 →
      latest readWord PoolSettings.default.shortThreads (given .shortThreads is) = .ok 0 ∨
        latest readWord PoolSettings.default.longThreads (given .longThreads is) = .ok 0 → Refuses is .zeroThreads

theorem Refuses.eq_fault {is : List Item} {e e' : Error} (first : is.findSome? Item.fault? = some e)
    (h : Refuses is e') : e' = e := by
  cases h with
  | fault first' => exact Option.some.inj (first'.symm.trans first)
  | bindRequired sound _ | zeroTimeout sound _ _ | zeroThreads sound _ _ _ =>
    rw [sound] at first
    cases first

theorem Refuses.unique {is : List Item} {e e' : Error} (h : Refuses is e) (h' : Refuses is e') : e = e' := by
  cases h' with
  | fault first => exact eq_fault first h
  | bindRequired sound bind =>
    cases h with
    | fault first => exact (eq_fault first (.bindRequired sound bind)).symm
    | bindRequired _ _ => rfl
    | zeroTimeout _ given _ | zeroThreads _ given _ _ => exact absurd bind given
  | zeroTimeout sound bind timeout =>
    cases h with
    | fault first => exact (eq_fault first (.zeroTimeout sound bind timeout)).symm
    | bindRequired _ none => exact absurd none bind
    | zeroTimeout _ _ _ => rfl
    | zeroThreads _ _ given _ => exact absurd timeout given
  | zeroThreads sound bind timeout threads =>
    cases h with
    | fault first => exact (eq_fault first (.zeroThreads sound bind timeout threads)).symm
    | bindRequired _ none => exact absurd none bind
    | zeroTimeout _ _ zero => exact absurd zero timeout
    | zeroThreads _ _ _ _ => rfl

namespace Asks

variable {d : Draft} {is : List Item}

theorem bind_iff (h : Asks is d) : d.bind = none ↔ given .bind is = [] := by
  have held : latest (fun v => (readAddress v).map some) none (given .bind is) = .ok d.bind := h.options .bind
  unfold latest at held
  cases last : (given .bind is).getLast? with
  | none =>
    rw [last] at held
    have absent : none = d.bind := Except.ok.inj held
    exact ⟨fun _ => List.getLast?_eq_none_iff.mp last, fun _ => absent.symm⟩
  | some v =>
    rw [last] at held
    obtain ⟨a, _, same⟩ := ok_of_map held
    rw [← same]
    constructor
    · intro absent
      cases absent
    · intro empty
      rw [empty] at last
      cases last

theorem timeout_iff (h : Asks is d) : d.manager.requestTimeout.nanos = 0 ↔
    latest readWord defaultTimeout (given .timeoutMs is) = .ok 0 := by
  obtain ⟨n, held, timeout⟩ : ∃ n, latest readWord defaultTimeout (given .timeoutMs is) = .ok n ∧
    d.manager.requestTimeout = .ofMillis n.toNat := h.options .timeoutMs
  rw [held, timeout]
  have zero : n.toNat * 1000000 = 0 ↔ n = 0 := by
    rw [← UInt64.toNat_inj]
    show _ ↔ n.toNat = 0
    omega
  exact zero.trans ⟨fun e => e ▸ rfl, fun e => Except.ok.inj e⟩

theorem threads_iff (h : Asks is d) : (d.pool.shortThreads = 0 ∨ d.pool.longThreads = 0) ↔
    latest readWord PoolSettings.default.shortThreads (given .shortThreads is) = .ok 0 ∨
      latest readWord PoolSettings.default.longThreads (given .longThreads is) = .ok 0 := by
  have short : latest readWord PoolSettings.default.shortThreads (given .shortThreads is) = .ok d.pool.shortThreads :=
    h.options .shortThreads
  have long : latest readWord PoolSettings.default.longThreads (given .longThreads is) = .ok d.pool.longThreads :=
    h.options .longThreads
  rw [short, long]
  simp

end Asks

/-- A line is taken, and its settings are what it asks for, or it is refused. -/
theorem read_cases (args : List String) :
    (∃ s, read args = .ok s ∧ Accepts (items args) ∧ Asks (items args) (.of s)) ∨
      ∃ e, read args = .error e ∧ Refuses (items args) e := by
  unfold read
  cases hf : (items args).findSome? Item.fault? with
  | some e =>
    rw [Draft.foldlM_fault hf]
    exact .inr ⟨e, rfl, .fault hf⟩
  | none =>
    have sound := List.findSome?_eq_none_iff.mp hf
    obtain ⟨d, hd, asks⟩ := exists_asks sound
    rw [hd]
    show (∃ s, d.finish = .ok s ∧ _) ∨ ∃ e, d.finish = .error e ∧ _
    -- faults are looked for in this order, and each refusal says that those before it do not apply
    by_cases bind : given .bind (items args) = []
    · refine .inr ⟨.bindRequired, ?_, .bindRequired hf bind⟩
      unfold Draft.finish
      rw [asks.bind_iff.mpr bind]
    obtain ⟨b, hb⟩ := Option.ne_none_iff_exists'.mp fun absent => bind (asks.bind_iff.mp absent)
    by_cases timeout : d.manager.requestTimeout.nanos = 0
    · refine .inr ⟨.zeroTimeout, ?_, .zeroTimeout hf bind (asks.timeout_iff.mp timeout)⟩
      unfold Draft.finish
      rw [hb]
      exact if_pos timeout
    by_cases threads : d.pool.shortThreads = 0 ∨ d.pool.longThreads = 0
    · refine .inr ⟨.zeroThreads, ?_, .zeroThreads hf bind (fun zero => timeout (asks.timeout_iff.mpr zero))
        (asks.threads_iff.mp threads)⟩
      unfold Draft.finish
      rw [hb]
      exact (if_neg timeout).trans (if_pos threads)
    refine .inl ⟨⟨b, d.seeds, d.policy, d.selector, d.manager, d.pool⟩, ?_, ?_, ?_⟩
    · unfold Draft.finish
      rw [hb]
      exact (if_neg timeout).trans (if_neg threads)
    · exact ⟨sound, bind, fun zero => timeout (asks.timeout_iff.mpr zero),
        fun zero => threads (asks.threads_iff.mpr (.inl zero)), fun zero => threads (asks.threads_iff.mpr (.inr zero))⟩
    · unfold Draft.of
      rw [← hb]
      exact asks

/-- What is accepted is not refused. -/
theorem Accepts.not_refuses {is : List Item} (h : Accepts is) (e : Error) : ¬ Refuses is e := by
  intro refuses
  cases refuses with
  | fault first =>
    obtain ⟨i, hi, fault⟩ := List.exists_of_findSome?_eq_some first
    rw [h.sound i hi] at fault
    cases fault
  | bindRequired _ none => exact h.bind none
  | zeroTimeout _ _ zero => exact h.timeout zero
  | zeroThreads _ _ _ zero => exact zero.elim h.short h.long

theorem Reading.append {front back : List String} {is js : List Item} (h : Reading front is)
    (complete : ∀ name, .option name none ∉ is) (h' : Reading back js) : Reading (front ++ back) (is ++ js) := by
  induction h with
  | done => exact h'
  | option name value _ ih => exact .option name value (ih fun other hi => complete other (List.mem_cons_of_mem _ hi))
  | cut name => exact absurd List.mem_cons_self (complete name)
  | flag _ ih => exact .flag (ih fun other hi => complete other (List.mem_cons_of_mem _ hi))
  | unknown other _ ih => exact .unknown other (ih fun name hi => complete name (List.mem_cons_of_mem _ hi))

theorem foldlM_unknown (is js : List Item) (text : String) (d : Draft) :
    (is ++ .unknown text :: js).foldlM Draft.apply d = (is ++ js).foldlM Draft.apply d := by
  rw [List.foldlM_append, List.foldlM_append]
  rfl

theorem read_unknown {front back : List String} {is : List Item} (h : Reading front is)
    (complete : ∀ name, .option name none ∉ is) {text : String} (unknown : Unknown text) :
    read (front ++ text :: back) = read (front ++ back) := by
  have bare := reading_iff.mp (h.append complete (reading_items back))
  have skipped := reading_iff.mp (h.append complete (.unknown unknown (reading_items back)))
  unfold read
  rw [← bare, ← skipped, foldlM_unknown]

/-- The language of the command line. There is one way to read a line. It is accepted if each option has a value that can
be read, some bind address is given, and the last timeout and thread counts are not zero; then the settings are those that
the line asks for. Otherwise it is refused, for its first fault if it has one. An unknown argument between two options
changes nothing. -/
theorem read_language (args : List String) : ∃ is, (∀ js, Reading args js ↔ js = is) ∧
    ((∃ s, read args = .ok s) ↔ Accepts is) ∧ (∀ s, read args = .ok s → Asks is (.of s)) ∧
    (∀ e, read args = .error e ↔ Refuses is e) ∧
    ∀ front back js text, args = front ++ back → Reading front js → (∀ name, .option name none ∉ js) → Unknown text →
      read (front ++ text :: back) = read args := by
  refine ⟨items args, fun js => reading_iff, ?_, ?_, ?_, ?_⟩
  · rcases read_cases args with ⟨s, hs, accepts, _⟩ | ⟨e, he, refuses⟩
    · exact ⟨fun _ => accepts, fun _ => ⟨s, hs⟩⟩
    · refine ⟨fun h => ?_, fun accepts => absurd refuses (accepts.not_refuses e)⟩
      obtain ⟨s, hs⟩ := h
      rw [hs] at he
      cases he
  · intro s hs
    rcases read_cases args with ⟨s', hs', _, asks⟩ | ⟨e, he, _⟩
    · rw [hs] at hs'
      cases hs'
      exact asks
    · rw [hs] at he
      cases he
  · intro e
    rcases read_cases args with ⟨s, hs, accepts, _⟩ | ⟨e', he, refuses⟩
    · refine ⟨fun he => ?_, fun refuses => absurd refuses (accepts.not_refuses e)⟩
      rw [hs] at he
      cases he
    · refine ⟨fun h => ?_, fun h => ?_⟩
      · rw [he] at h
        cases h
        exact refuses
      · rw [he, refuses.unique h]
  · intro front back js text split reads complete unknown
    rw [split]
    exact read_unknown reads complete unknown

theorem read_language_verbose :
    Reading ["--bind", "10.0.0.1:7000"] [.option .bind (some "10.0.0.1:7000")] ∧ Unknown "--verbose" ∧
    (∃ s, read ["--bind", "10.0.0.1:7000", "--no-statistics"] = .ok s ∧
      Asks [.option .bind (some "10.0.0.1:7000"), .noStatistics] (.of s)) ∧
    read ["--bind", "10.0.0.1:7000", "--verbose", "--no-statistics"] =
      read ["--bind", "10.0.0.1:7000", "--no-statistics"] := by
  have front : Reading ["--bind", "10.0.0.1:7000"] [.option .bind (some "10.0.0.1:7000")] :=
    .option .bind "10.0.0.1:7000" .done
  have whole : Reading ["--bind", "10.0.0.1:7000", "--no-statistics"]
      [.option .bind (some "10.0.0.1:7000"), .noStatistics] :=
    .option .bind "10.0.0.1:7000" (.flag .done)
  have unknown : Unknown "--verbose" := ⟨fun name => by cases name <;> decide, by decide⟩
  obtain ⟨is, one, _, asks, _, skips⟩ := read_language ["--bind", "10.0.0.1:7000", "--no-statistics"]
  rw [← (one _).mp whole] at asks
  refine ⟨front, unknown, ⟨_, rfl, asks _ rfl⟩, skips _ _ _ "--verbose" rfl front (fun name => ?_) unknown⟩
  cases name <;> decide

end Workshare.CommandLine
