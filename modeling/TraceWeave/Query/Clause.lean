import TraceWeave.Query.Fault
import TraceWeave.Text.Blank
import TraceWeave.Text.Pieces
import TraceWeave.Trace.Group

/-!
# Clauses

A clause `key=value` asks for traces with a span that carries the pair. There is exactly one
equals sign. Spaces and tabs around the key do not count, nor do blanks around the value, and
neither may be empty.

* `Clause.readAll_eq_ok_iff`: a list of clauses reads exactly if each of them does.
-/

namespace TraceWeave.Query

open Text

/-- A pair that some span of a trace has to carry. -/
structure Clause where
  key : String
  value : String
deriving DecidableEq, Repr

namespace Clause

/-- The characters of keys. -/
def isKeyChar (c : Char) : Bool :=
  c.isAlphanum || c == '_' || c == '.' || c == ':' || c == '-'

/-- The characters that may stand around a key. -/
def isGap (c : Char) : Bool :=
  c == ' ' || c == '\t'

def display (c : Clause) : String :=
  c.key ++ "=" ++ c.value

/-- Reads the part before the equals sign. -/
def readKey? (cs : List Char) : Option (List Char) :=
  let front := cs.dropWhile isGap
  let key := front.takeWhile isKeyChar
  if !key.isEmpty && (front.dropWhile isKeyChar).all isGap then some key else none

/-- Reads a clause. -/
def read? (text : String) : Option Clause :=
  match pieces '=' text.toList with
  | [left, right] => do
    let key ← readKey? left
    let value := trim right
    if value.isEmpty then none else some ⟨String.ofList key, String.ofList value⟩
  | _ => none

/-- Reads clauses, and names all that do not read. -/
def readAll (texts : List String) : Except Fault (List Clause) :=
  let malformed := texts.filter fun text => (read? text).isNone
  if malformed.isEmpty then .ok (texts.filterMap read?) else .error (.malformedClauses malformed)

/-- Some span of the trace carries the pair. -/
def holds (c : Clause) (trace : TraceGroup) : Bool :=
  trace.spans.any (·.hasAttribute c.key c.value)

theorem map_read?_eq_iff {texts : List String} {clauses : List Clause} :
    texts.map read? = clauses.map some ↔
      (∀ text ∈ texts, (read? text).isSome = true) ∧ texts.filterMap read? = clauses := by
  induction texts generalizing clauses with
  | nil => cases clauses <;> simp
  | cons text texts ih =>
    cases hread : read? text with
    | none => cases clauses <;> simp [hread]
    | some clause =>
      cases clauses with
      | nil => simp [hread]
      | cons first rest =>
        simp only [List.map_cons, hread, List.cons.injEq, Option.some.injEq, ih,
          List.forall_mem_cons, Option.isSome_some, true_and, List.filterMap_cons]
        exact and_left_comm

theorem readAll_eq_ok_iff {texts : List String} {clauses : List Clause} :
    readAll texts = .ok clauses ↔ texts.map read? = clauses.map some := by
  rw [map_read?_eq_iff]
  unfold readAll
  by_cases h : ∀ text ∈ texts, (read? text).isSome = true
  · have hnone : (texts.filter fun text => (read? text).isNone) = [] := by
      rw [List.filter_eq_nil_iff]
      intro text htext
      simpa [Option.isSome_iff_ne_none] using h text htext
    simpa [hnone] using fun _ => h
  · have hsome : (texts.filter fun text => (read? text).isNone) ≠ [] := by
      intro hnil
      refine h fun text htext => ?_
      have := List.filter_eq_nil_iff.1 hnil text htext
      simpa [Option.isSome_iff_ne_none] using this
    simp [hsome, h]

end Clause

end TraceWeave.Query
