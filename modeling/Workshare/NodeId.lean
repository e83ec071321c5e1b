import Workshare.Table
import Workshare.Text.Quoted

namespace Workshare

/-- Names are ordered by code point, which is the order of their UTF-8 bytes. -/
structure NodeId where
  text : String
  deriving DecidableEq, Repr, Inhabited, Hashable

namespace NodeId

instance : Key NodeId where
  lt a b := a.text < b.text
  decEq := inferInstance
  decLt a b := inferInstanceAs (Decidable (a.text < b.text))
  irrefl a := String.lt_irrefl a.text
  trans := String.lt_trans
  total a b := by
    rcases Key.total a.text b.text with h | h | h
    · exact .inl h
    · exact .inr (.inl (by cases a; cases b; simp_all))
    · exact .inr (.inr h)

/-- The form in which messages name a node. -/
def shown (n : NodeId) : String :=
  "NodeId(" ++ Quoted.quote n.text ++ ")"

end NodeId

end Workshare
