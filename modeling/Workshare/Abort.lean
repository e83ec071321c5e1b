namespace Workshare

structure Abort where
  text : String
  deriving DecidableEq, Repr

/-- A sum that does not fit its word. -/
def Abort.sumOverflow : Abort :=
  ⟨"attempt to add with overflow"⟩

end Workshare
