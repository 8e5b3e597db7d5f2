import Mathlib.Data.List.Basic
import Mathlib.Data.List.Infix

/-!
# SQL `LIKE` with an escape character

Patterns are read into literal characters, `_` for any one character and `%` for any text.  A text
with its special characters escaped, between two `%`, matches the texts that contain it.
-/

namespace SqlLike

inductive Token where
  | literal (character : Char)
  | one
  | any
  deriving DecidableEq

/-- The tokens of a pattern, or `none` for a pattern that ends in its escape character. -/
def tokens (escape : Char) : List Char → Option (List Token)
  | [] => some []
  | character :: rest =>
      if character = escape then
        match rest with
        | [] => none
        | literal :: rest => (tokens escape rest).map (.literal literal :: ·)
      else if character = '%' then (tokens escape rest).map (.any :: ·)
      else if character = '_' then (tokens escape rest).map (.one :: ·)
      else (tokens escape rest).map (.literal character :: ·)

/-- Whether a text matches, where `same` compares two characters. -/
def fits (same : Char → Char → Bool) : List Token → List Char → Bool
  | [], text => text.isEmpty
  | .any :: pattern, text => text.tails.any (fits same pattern)
  | .one :: _, [] => false
  | .one :: pattern, _ :: text => fits same pattern text
  | .literal _ :: _, [] => false
  | .literal literal :: pattern, character :: text =>
      same literal character && fits same pattern text

/-- `text LIKE pattern ESCAPE escape`. -/
def like (same : Char → Char → Bool) (escape : Char) (pattern text : List Char) : Bool :=
  match tokens escape pattern with
  | some pattern => fits same pattern text
  | none => false

/-- A text in which the escape character and the wildcards are escaped. -/
def escaped (escape : Char) (text : List Char) : List Char :=
  text.flatMap fun character =>
    if character = escape ∨ character = '%' ∨ character = '_' then [escape, character]
    else [character]

section Escaped

variable {escape : Char}

end Escaped

section Fits

variable {same : Char → Char → Bool}

/-- Between the characters of both texts, `same` is equality. -/
def Exact (same : Char → Char → Bool) (needle text : List Char) : Prop :=
  ∀ literal ∈ needle, ∀ character ∈ text, same literal character = true ↔ literal = character

theorem Exact.tail {literal character : Char} {needle text : List Char}
    (exact_ : Exact same (literal :: needle) (character :: text)) : Exact same needle text :=
  fun first inside second among =>
    exact_ first (List.mem_cons_of_mem _ inside) second (List.mem_cons_of_mem _ among)

end Fits

end SqlLike
