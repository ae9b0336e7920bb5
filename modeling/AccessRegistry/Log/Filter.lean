/-
# Log filters

A filter says how verbose the parts of the service may be. It is written as
directives with commas between them. A directive is a level for every part, or a
target with a level for the parts whose target begins with it; a target without a
level lets everything through. Of the directives about a part the one with the
longest target counts, and of several with one target the last one. A part that no
directive is about stays silent. A directive with brackets is about spans, in which
no part writes.

Key definitions: `Log.Directive`, `Log.Directive.ofText?`, `Log.Filter.ofText`,
`Log.Filter.shows`.
Key theorems: `Log.Filter.shows_level`, `Log.Filter.shows_append`.
-/
import AccessRegistry.Log
import AccessRegistry.Text.Blank
import AccessRegistry.Text.Letter
import AccessRegistry.Text.Numeral

namespace AccessRegistry.Log

/-- How verbose some parts may be. -/
structure Directive where
  /-- The directive is about the parts whose target begins with this. -/
  target : List Char
  /-- Records up to this verbosity are shown. -/
  verbosity : Nat
  /-- The directive is about spans alone. -/
  ofSpans : Bool
  deriving DecidableEq, Repr

/-- The verbosity that a text stands for: the name of a level in any case, the word
`off`, or a number. -/
def verbosity? (s : String) : Option Nat :=
  match (Numeral.below? UInt64.size s).filter (· ≤ Level.trace.verbosity) with
  | some n => some n
  | none =>
    List.lookup (s.map Char.toUpper)
      (("OFF", 0) :: ([.error, .warn, .info, .debug, .trace] : List Level).map
        fun l => (l.name, l.verbosity))

namespace Directive

/-- Whether a target or a level may begin with a character. -/
def mayStart (c : Char) : Bool := Letter.isAlphanumeric c || c = '-' || c = ':' || c = '_'

/-- How many bytes characters take. -/
def size (cs : List Char) : Nat := (String.ofList cs).utf8ByteSize

/-- The characters that begin among the first `n` bytes. -/
def takeBytes : (n : Nat) → List Char → List Char
  | 0, _ => []
  | _, [] => []
  | n, c :: cs => c :: takeBytes (n - c.utf8Size) cs

/-- The characters behind those that begin among the first `n` bytes. -/
def dropBytes (n : Nat) (cs : List Char) : List Char := cs.drop (takeBytes n cs).length

/-- A directive without the blanks around it, taken apart. -/
inductive Shape where
  /-- A level or a target. -/
  | word
  /-- A target and what stands behind an equals sign. -/
  | leveled (target level : List Char)
  /-- Something about spans, and what stands behind an equals sign if there is one. -/
  | ofSpans (level : Option (List Char))

/-- What stands behind a closing bracket: a level, or nothing. -/
def behindSpan? : List Char → Option Shape
  | [] => some (.ofSpans none)
  | '=' :: level => some (.ofSpans (some level))
  | _ => none

/-- What stands behind an opening bracket: the name of a span, which may be empty, and in
braces the names of values, of which there is at least one. -/
def span? (cs : List Char) : Option Shape :=
  match cs.dropWhile fun c => c != ']' && c != '\x7b' with
  | ']' :: rest => behindSpan? rest
  | _ :: rest =>
    match rest.span (· != '\x7d') with
    | ([], _) => none
    | (_, _ :: ']' :: rest) => behindSpan? rest
    | _ => none
  | [] => none

/-- Takes characters apart. -/
def shape? : List Char → Option Shape
  | [] => none
  | '[' :: rest => span? rest
  | c :: cs =>
    if mayStart c then
      let (target, rest) := (c :: cs).span fun c => c != '=' && c != '['
      match rest with
      | [] => some .word
      | '[' :: rest => span? rest
      | _ :: level => some (.leveled target level)
    else none

/-- The verbosity behind an equals sign: everything if nothing stands there. -/
def levelOf? : List Char → Option Nat
  | [] => some Level.trace.verbosity
  | cs => verbosity? (String.ofList cs)

/-- The directive that a text writes. The blanks around a directive do not count when it
is taken apart, but the parts are then cut out of the text with the blanks, at the places
that they have in the text without them. -/
def ofText? (s : String) : Option Directive :=
  let cs := s.toList
  let inner := (Blank.skip (Blank.skip cs).reverse).reverse
  let placed (level : List Char) : List Char := dropBytes (size inner - size level) cs
  match shape? inner with
  | none => none
  | some .word =>
    some (((verbosity? s).map fun v => ⟨[], v, false⟩).getD ⟨cs, Level.trace.verbosity, false⟩)
  | some (.leveled target level) =>
    (levelOf? (placed level)).map fun v => ⟨takeBytes (size target) cs, v, false⟩
  | some (.ofSpans level) =>
    (levelOf? ((level.map placed).getD [])).map fun v => ⟨[], v, true⟩

/-- Whether a directive is about a part. -/
def covers (d : Directive) (p : Part) : Bool :=
  !d.ofSpans && d.target.isPrefixOf p.target.toList

/-- Of two directives the one that counts. -/
def later (chosen : Option Directive) (d : Directive) : Option Directive :=
  match chosen with
  | none => some d
  | some c => if c.target.length ≤ d.target.length then some d else some c

end Directive

/-- A list of directives. -/
abbrev Filter := List Directive

namespace Filter

/-- The filter that a text writes. What is no directive is ignored; without any
directive only errors are shown. -/
def ofText (s : String) : Filter :=
  let ds := (s.splitOn ",").filterMap Directive.ofText?
  if ds.isEmpty then [⟨[], Level.error.verbosity, false⟩] else ds

/-- The directive that counts for a part. -/
def directive? (f : Filter) (p : Part) : Option Directive :=
  (f.filter fun d => d.covers p).foldl Directive.later none

/-- Whether a record is shown. -/
def shows (f : Filter) (r : Record) : Bool :=
  (f.directive? r.part).any fun d => r.level.verbosity ≤ d.verbosity

theorem shows_level (v : Nat) (r : Record) :
    shows [⟨[], v, false⟩] r = decide (r.level.verbosity ≤ v) := by
  simp [shows, directive?, Directive.covers, Directive.later]

/-- A directive overrides those before it for the parts that it is about, unless one
of them has a longer target. -/
theorem shows_append (f : Filter) (d : Directive) (r : Record) (hd : d.covers r.part)
    (hf : ∀ c ∈ f.directive? r.part, c.target.length ≤ d.target.length) :
    shows (f ++ [d]) r = decide (r.level.verbosity ≤ d.verbosity) := by
  have : directive? (f ++ [d]) r.part = some d := by
    unfold directive? at hf ⊢
    simp only [List.filter_append, List.foldl_append, List.filter_cons, hd, if_true,
      List.filter_nil, List.foldl_cons, List.foldl_nil]
    cases h : (f.filter fun c => c.covers r.part).foldl Directive.later none with
    | none => rfl
    | some c => simp [Directive.later, hf c h]
  simp [shows, this]

end Filter
end AccessRegistry.Log
