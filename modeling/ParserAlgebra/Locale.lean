import ParserAlgebra.Parser.Primitive

/-!
# Numbers of a locale

The symbols of a locale's numbers come from locale data, which need not be installed. A number of the
locale is `sign? D+ (group D+)* (decimal D+)?`, where `D` are the decimal digits of all scripts and an
empty symbol matches nothing.
-/

namespace ParserAlgebra

/-- The symbols that a locale writes numbers with. -/
structure NumberSymbols where
  decimal : Text
  group : Text
  plus : Text
  minus : Text
deriving DecidableEq

/-- What locale data say about a locale. -/
inductive LocaleEntry where
  | symbols (s : NumberSymbols)
  /-- The locale is refused for the given reason. -/
  | refused (reason : Text)
  /-- The data cannot be read. -/
  | broken
deriving DecidableEq

/-- Locale data by the codes of the locales. -/
abbrev LocaleData := List (Text × LocaleEntry)

/-- The locale data that are installed, if any are. -/
abbrev Installation := Option LocaleData

namespace Installation

def isAvailable (data : Installation) : Bool :=
  data.isSome

/-- The locale data, for a feature that needs them. -/
def require (data : Installation) (feature : Text) : Except Fault LocaleData :=
  match data with
  | some entries => .ok entries
  | none => .error (.noLocaleData feature)

/-- The feature that the symbols of numbers are. -/
def numbersFeature : Text := "get_babel_numbers"

def numberSymbols (data : Installation) (locale : Text) : Except Fault NumberSymbols := do
  let entries ← data.require numbersFeature
  match entries.lookup locale with
  | some (.symbols s) => return s
  | some (.refused reason) => throw (.ofCause (.unknownLocale locale reason))
  | some .broken => throw .brokenLocale
  | none => throw (.ofCause (.unknownLocale locale ("unknown locale '" ++ locale ++ "'")))

/-- The text of a number with the signs of a locale replaced by `-` and `+`, ready to be read as a
decimal. -/
def plainSigns (data : Installation) (number locale : Text) : Except Fault Text := do
  let s ← data.numberSymbols locale
  return (number.replace s.minus ['-']).replace s.plus ['+']

end Installation

namespace NumberSymbols

/-- The cursor behind the first of the symbols that is not empty and comes next. -/
def skipSymbol? (symbols : List Text) (c : Cursor) : Option Cursor :=
  (symbols.find? fun symbol => !symbol.isEmpty && c.startsWith symbol).map fun symbol =>
    c.advance symbol.length

def digitNext (c : Cursor) : Bool :=
  match c.current with
  | .ok ch => Unicode.isDecimal ch
  | .error _ => false

/-- The cursor behind at most `limit` digits and separators, where `group` may stand before a digit. -/
def skipGrouped (group : Text) : (limit : Nat) → Cursor → Cursor
  | 0, c => c
  | limit + 1, c =>
    if digitNext c then skipGrouped group limit (c.advance 1)
    else
      match skipSymbol? [group] c with
      | some d => if digitNext d then skipGrouped group limit d else c
      | none => c

/-- The cursor behind the decimal symbol and the digits that come next, the same cursor if one of them
is missing. -/
def skipFraction (decimal : Text) (c : Cursor) : Cursor :=
  match skipSymbol? [decimal] c with
  | some d => if digitNext d then skipGrouped [] d.remaining d else c
  | none => c

/-- The cursor behind the sign that comes next, the same cursor if there is none. -/
def skipSign (s : NumberSymbols) (c : Cursor) : Cursor :=
  (skipSymbol? [s.plus, s.minus, ['+'], ['-']] c).getD c

/-- The cursor behind the longest number whose digits come next. -/
def skipDigits (s : NumberSymbols) (c : Cursor) : Cursor :=
  skipFraction s.decimal (skipGrouped s.group c.remaining c)

end NumberSymbols

/-- The longest number in the writing of a locale. -/
def Parser.localeNumber {σ : Type} (data : Installation) (locale : Text) :
    Except Fault (Parser σ) := do
  let symbols ← data.numberSymbols locale
  return {
    name := Wording.call "locale_number" [locale.quote]
    run := fun c => do
      let start := symbols.skipSign c
      let mismatch := Outcome.fail c (Wording.expectedLocaleNumber locale) Wording.digits
      if start.atEnd then return mismatch
      let ch ← start.current
      if Unicode.isDecimal ch then
        let stop := symbols.skipDigits start
        return .success (.text (stop.since c)) stop
      return mismatch }

end ParserAlgebra
