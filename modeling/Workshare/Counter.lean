namespace Workshare

inductive Counter
  | doWorkAccepted
  | doWorkRejected
  | startWorkAccepted
  | startWorkRejected
  | scheduleWorkAccepted
  | scheduleWorkRejected
  | workSuccessful
  | workFailed
  deriving DecidableEq, Repr, Inhabited

namespace Counter

/-- In the order of their indices. -/
def all : List Counter :=
  [.doWorkAccepted, .doWorkRejected, .startWorkAccepted, .startWorkRejected, .scheduleWorkAccepted,
    .scheduleWorkRejected, .workSuccessful, .workFailed]

def index (c : Counter) : Nat :=
  c.ctorIdx

def name : Counter → String
  | .doWorkAccepted => "DoWorkAccepted"
  | .doWorkRejected => "DoWorkRejected"
  | .startWorkAccepted => "StartWorkAccepted"
  | .startWorkRejected => "StartWorkRejected"
  | .scheduleWorkAccepted => "ScheduleWorkAccepted"
  | .scheduleWorkRejected => "ScheduleWorkRejected"
  | .workSuccessful => "WorkSuccessful"
  | .workFailed => "WorkFailed"

def ofName? (s : String) : Option Counter :=
  all.find? (·.name = s)

end Counter

/-- One value per counter. -/
structure Tally (α : Type) where
  doWorkAccepted : α
  doWorkRejected : α
  startWorkAccepted : α
  startWorkRejected : α
  scheduleWorkAccepted : α
  scheduleWorkRejected : α
  workSuccessful : α
  workFailed : α
  deriving DecidableEq, Repr

namespace Tally

variable {α β γ : Type}

def ofFn (f : Counter → α) : Tally α :=
  ⟨f .doWorkAccepted, f .doWorkRejected, f .startWorkAccepted, f .startWorkRejected,
    f .scheduleWorkAccepted, f .scheduleWorkRejected, f .workSuccessful, f .workFailed⟩

def get (t : Tally α) : Counter → α
  | .doWorkAccepted => t.doWorkAccepted
  | .doWorkRejected => t.doWorkRejected
  | .startWorkAccepted => t.startWorkAccepted
  | .startWorkRejected => t.startWorkRejected
  | .scheduleWorkAccepted => t.scheduleWorkAccepted
  | .scheduleWorkRejected => t.scheduleWorkRejected
  | .workSuccessful => t.workSuccessful
  | .workFailed => t.workFailed

@[simp] theorem get_ofFn (f : Counter → α) (c : Counter) : (ofFn f).get c = f c := by
  cases c <;> rfl

def toList (t : Tally α) : List α :=
  Counter.all.map t.get

def map (f : α → β) (t : Tally α) : Tally β :=
  ofFn fun c => f (t.get c)

def zipWith (f : α → β → γ) (s : Tally α) (t : Tally β) : Tally γ :=
  ofFn fun c => f (s.get c) (t.get c)

def zero : Tally Nat :=
  ofFn fun _ => 0

/-- One more at a counter. -/
def bump (t : Tally Nat) (c : Counter) : Tally Nat :=
  ofFn fun d => if d = c then t.get d + 1 else t.get d

def add (s t : Tally Nat) : Tally Nat :=
  zipWith (· + ·) s t

@[simp] theorem get_zero (c : Counter) : zero.get c = 0 :=
  get_ofFn _ c

@[simp] theorem get_bump (t : Tally Nat) (c d : Counter) :
    (t.bump c).get d = if d = c then t.get d + 1 else t.get d :=
  get_ofFn _ d

@[simp] theorem get_add (s t : Tally Nat) (c : Counter) : (s.add t).get c = s.get c + t.get c :=
  get_ofFn _ c

theorem ext_get {s t : Tally α} (h : ∀ c, s.get c = t.get c) : s = t := by
  have h1 := h .doWorkAccepted
  have h2 := h .doWorkRejected
  have h3 := h .startWorkAccepted
  have h4 := h .startWorkRejected
  have h5 := h .scheduleWorkAccepted
  have h6 := h .scheduleWorkRejected
  have h7 := h .workSuccessful
  have h8 := h .workFailed
  cases s; cases t
  simp_all [get]

end Tally

end Workshare
