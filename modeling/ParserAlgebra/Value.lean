import ParserAlgebra.Text.Basic

/-!
# Values

What a match yields: usually the text it took, but also nothing, an integer such as a precedence, or
a tuple of values. Which of them a parser yields shows only when it runs.
-/

namespace ParserAlgebra

/-- The yield of a match. -/
inductive Value where
  | none
  | text (t : Text)
  | int (n : Int)
  | tuple (vs : List Value)

namespace Value

mutual
def decEq : (v w : Value) → Decidable (v = w)
  | .none, .none => isTrue rfl
  | .text t, .text u => if h : t = u then isTrue (by rw [h]) else isFalse (by simp [h])
  | .int m, .int n => if h : m = n then isTrue (by rw [h]) else isFalse (by simp [h])
  | .tuple vs, .tuple ws =>
    match decEqList vs ws with
    | isTrue h => isTrue (by rw [h])
    | isFalse h => isFalse (by simp [h])
  | .none, .text _ | .none, .int _ | .none, .tuple _
  | .text _, .none | .text _, .int _ | .text _, .tuple _
  | .int _, .none | .int _, .text _ | .int _, .tuple _
  | .tuple _, .none | .tuple _, .text _ | .tuple _, .int _ => isFalse nofun

def decEqList : (vs ws : List Value) → Decidable (vs = ws)
  | [], [] => isTrue rfl
  | [], _ :: _ | _ :: _, [] => isFalse nofun
  | v :: vs, w :: ws =>
    match decEq v w, decEqList vs ws with
    | isTrue h, isTrue hs => isTrue (by rw [h, hs])
    | isFalse h, _ => isFalse (by simp [h])
    | _, isFalse hs => isFalse (by simp [hs])
end

instance : DecidableEq Value := decEq

/-- The text that a value is, if it is one. -/
def text? : Value → Option Text
  | .text t => some t
  | _ => Option.none

/-- The values joined to one text, if all of them are texts. -/
def concat? : List Value → Option Text
  | [] => some []
  | .text t :: vs => (concat? vs).map (t ++ ·)
  | _ :: _ => Option.none

end Value

end ParserAlgebra
