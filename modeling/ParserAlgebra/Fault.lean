import ParserAlgebra.Diagnostic

/-!
# Faults

A parser that does not match gives a failure as its outcome. A fault is something else: the parser
was built wrongly, a value has the wrong kind, a callback gave up. It ends the run.
-/

namespace ParserAlgebra

/-- What a complaint says: a text, or a diagnostic. -/
inductive Report where
  | plain (message : Text)
  | diagnosed (d : Diagnostic)
deriving DecidableEq

namespace Report

def message : Report → Text
  | plain message => message
  | diagnosed d => d.format

def diagnostic? : Report → Option Diagnostic
  | plain _ => none
  | diagnosed d => some d

end Report

inductive Complaint where
  /-- The use of the library, in a way that no other case names. -/
  | misuse
  /-- The arguments of a parser. -/
  | configuration
  /-- A capture that should hold a single element. -/
  | unpacking
deriving DecidableEq

/-- Why a run ended without an outcome. -/
inductive Fault where
  /-- The library was misused in a way that no other case names. -/
  | misuse (report : Report)
  /-- A parser was built from unfit arguments. -/
  | configuration (report : Report)
  /-- A capture of `count` elements was taken for a single one. -/
  | unpacking (report : Report) (count : Int)
  /-- A character was asked for at the end of the input. -/
  | endOfInput (pos : Int)
  /-- A character was asked for outside the source. -/
  | outsideSource
  /-- A feature needs locale data, and none are installed. -/
  | noLocaleData (feature : Text)
  /-- The locale data broke off while a locale was looked up. -/
  | brokenLocale
  | undefinedReference
  | callback (message : Text)
  /-- A value was added to a list that was not given. -/
  | noList
  /-- A value that is no text was joined to a text, one that is no tuple was unpacked, or a text was
  run. -/
  | wrongKind
  /-- A text was given where only a parser will do. -/
  | noParser
  /-- A complaint was made with a count that it has no place for, or without the count that it
  needs. -/
  | unfitCount
  /-- A text is not the text of a number. -/
  | noNumeral
  | noOperand
  /-- A token in the place of an operator is none. -/
  | noOperator
  | divisionByZero
  /-- An integer is beyond the floating-point numbers. -/
  | tooLarge
  /-- A repetition went on without coming closer to the end of the input. -/
  | endless
deriving DecidableEq

namespace Fault

/-- The fault for a parser built wrongly. -/
def ofCause (cause : Cause) : Fault :=
  .configuration (.diagnosed cause.diagnostic)

/-- The fault for a capture of `count` elements that should hold one. -/
def ambiguous (count : Nat) : Fault :=
  .unpacking (.diagnosed (Cause.ambiguousUnpack count).diagnostic) count

/-- The fault for a complaint that may come with a count. Only one about a capture has a count, and it
must have one. -/
def ofComplaint (complaint : Complaint) (report : Report) (count : Option Int) :
    Except Fault Fault :=
  match complaint, count with
  | .misuse, none => .ok (.misuse report)
  | .configuration, none => .ok (.configuration report)
  | .unpacking, some n => .ok (.unpacking report n)
  | _, _ => .error .unfitCount

/-- The complaint that a fault of the library's own carries. -/
def report? : Fault → Option Report
  | misuse report | configuration report | unpacking report _ => some report
  | _ => none

/-- Whether a fault is the library's own complaint about its use. -/
def isMisuse (fault : Fault) : Bool :=
  fault.report?.isSome

/-- Whether a fault says that a value is unfit. -/
def isUnfitValue : Fault → Bool
  | configuration _ | unpacking .. | noNumeral => true
  | _ => false

def message? : Fault → Option Text
  | misuse report | configuration report | unpacking report _ => some report.message
  | endOfInput pos => some (Cause.unexpectedEnd pos).diagnostic.message
  | noLocaleData feature =>
    some (feature ++ " requires Babel for CLDR locale data. "
      ++ "Install with: pip install parsecomb[babel]")
  | callback message => some message
  | _ => none

end Fault

/-- A yes or no, from code that may give up. -/
abbrev Test (α : Type) := α → Except Fault Bool

/-- A test that never gives up. -/
def Test.total {α : Type} (f : α → Bool) : Test α :=
  fun a => .ok (f a)

instance {α : Type} : Coe (α → Bool) (Test α) := ⟨Test.total⟩

def Test.not {α : Type} (test : Test α) : Test α :=
  fun a => (!·) <$> test a

end ParserAlgebra
