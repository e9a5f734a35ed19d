/-!
# Text

A text is a list of characters, so positions and lengths count code points. Besides searching and
cutting, this module has the decimal writing of integers, which messages need.

A position is an integer. One that is negative counts from the end of the text, and one that is still
before the beginning after that stands for the beginning.
-/

namespace ParserAlgebra

/-- A sequence of code points. -/
abbrev Text := List Char

instance : Coe String Text := ⟨String.toList⟩

namespace Text

/-! ## Writing -/

/-- The decimal digits of `n`. -/
def ofNat (n : Nat) : Text :=
  Nat.toDigits 10 n

/-- The decimal digits of `n` after a minus sign if it is negative. -/
def ofInt : Int → Text
  | .ofNat n => ofNat n
  | .negSucc n => '-' :: ofNat (n + 1)

/-- `t` filled up on the left to the given width. -/
def padLeft (fill : Char) (width : Nat) (t : Text) : Text :=
  List.replicate (width - t.length) fill ++ t

/-- The texts with a comma between neighbours. -/
def commaSeparated (ts : List Text) : Text :=
  List.intercalate [',', ' '] ts

/-! ## Order -/

/-- Whether `a` comes before `b` in a dictionary whose alphabet is ordered by code points. -/
def precedes : (a b : Text) → Bool
  | _, [] => false
  | [], _ :: _ => true
  | c :: a, d :: b => c.toNat < d.toNat || (c == d && precedes a b)

/-! ## Cutting -/

/-- The index that a position stands for. -/
def index (t : Text) (pos : Int) : Nat :=
  (if pos < 0 then pos + t.length else pos).toNat

/-- The characters from the position `start` up to but not including `stop`. There are none if `stop`
does not stand behind `start`. -/
def slice (t : Text) (start stop : Int) : Text :=
  (t.take (t.index stop)).drop (t.index start)

/-- The character at a position. There is none at a position that does not stand for a place of its
own. -/
def at? (t : Text) (pos : Int) : Option Char :=
  if pos + t.length < 0 then none else t[t.index pos]?

theorem index_of_nonneg (t : Text) {pos : Int} (h : 0 ≤ pos) : t.index pos = pos.toNat := by
  rw [index, if_neg (by omega)]

@[simp] theorem index_natCast (t : Text) (n : Nat) : t.index n = n :=
  t.index_of_nonneg (Int.natCast_nonneg n)

@[simp] theorem slice_natCast (t : Text) (start stop : Nat) :
    t.slice start stop = (t.take stop).drop start := by
  simp [slice]

/-- The texts before and after the first occurrence of `mark`. -/
def cut? (mark : Text) : Text → Option (Text × Text)
  | [] => if mark.isEmpty then some ([], []) else none
  | c :: t =>
    if mark.isPrefixOf (c :: t) then some ([], (c :: t).drop mark.length)
    else (cut? mark t).map fun (before, after) => (c :: before, after)

/-- The index of the first occurrence of `mark`. -/
def indexOf? (t mark : Text) : Option Nat :=
  (cut? mark t).map fun (before, _) => before.length

/-! ## Replacing -/

/-- Replaces the occurrences of the non-empty `old` after the first `skip` characters, which belong
to an occurrence already replaced. -/
def replaceFrom (old new : Text) : (skip : Nat) → Text → Text
  | _, [] => []
  | skip + 1, _ :: t => replaceFrom old new skip t
  | 0, c :: t =>
    if old.isPrefixOf (c :: t) then new ++ replaceFrom old new (old.length - 1) t
    else c :: replaceFrom old new 0 t

/-- Replaces the occurrences of `old`, from left to right and without overlap. The empty text occurs
before every character and at the end. -/
def replace (t old new : Text) : Text :=
  if old.isEmpty then new ++ t.flatMap fun c => c :: new
  else replaceFrom old new 0 t

end Text

end ParserAlgebra
