import Mathlib.Order.MinMax
import Interleaving.Pattern.Token
import Interleaving.Pattern.Tree

/-!
# The grammar of pattern text

`Pattern.Derives` gives the rules of the grammar, each with the tree of what it derives and the
depth to which its groups nest. The tokens of a phrase alone tell that depth
(`Pattern.Derives.nesting_unique`).
-/

namespace Interleaving.Pattern

section Rules

/-- What the grammar has rules for. -/
inductive Phrase where
  | alternatives
  | sequence
  | repeated
  | item
deriving DecidableEq

/-- What a condition can ask of a field: a quoted value, or any. -/
inductive Value : TokenKind → String → Prop where
  | quoted {v : String} :
    Value (.str v) v
  | any :
    Value .star EventTerm.wildcard

/-- One or more conditions with commas between them. -/
inductive Conditions : List TokenKind → List (String × String) → Prop where
  | last {f v : String} {k : TokenKind} :
    Value k v →
    Conditions [.ident f, .colon, k] [(f, v)]
  | more {f v : String} {k : TokenKind} {ts : List TokenKind} {cs : List (String × String)} :
    Value k v →
    Conditions ts cs →
    Conditions (.ident f :: .colon :: k :: .comma :: ts) ((f, v) :: cs)

/-- What stands after the name of an event. -/
inductive Braces : List TokenKind → List (String × String) → Prop where
  | none :
    Braces [] []
  | empty :
    Braces [.openBrace, .closeBrace] []
  | some {ts : List TokenKind} {cs : List (String × String)} :
    Conditions ts cs →
    Braces (.openBrace :: (ts ++ [.closeBrace])) cs

/-- The tokens make up a phrase with this tree, and its groups nest to the depth `n`; the empty
group is no level of its own. Of two conditions on one field the later holds. -/
inductive Derives : Phrase → Nat → List TokenKind → Pattern → Prop where
  | sequence {n : Nat} {ts : List TokenKind} {p : Pattern} :
    Derives .sequence n ts p →
    Derives .alternatives n ts p
  | bar {n m : Nat} {ts us : List TokenKind} {p q : Pattern} :
    Derives .alternatives n ts p →
    Derives .sequence m us q →
    Derives .alternatives (max n m) (ts ++ .bar :: us) (alt p q)
  | repeated {n : Nat} {ts : List TokenKind} {p : Pattern} :
    Derives .repeated n ts p →
    Derives .sequence n ts p
  | comma {n m : Nat} {ts us : List TokenKind} {p q : Pattern} :
    Derives .sequence n ts p →
    Derives .repeated m us q →
    Derives .sequence (max n m) (ts ++ .comma :: us) (seq p q)
  | next {n m : Nat} {ts us : List TokenKind} {p q : Pattern} :
    Derives .sequence n ts p →
    Derives .repeated m us q →
    Derives .sequence (max n m) (ts ++ us) (seq p q)
  | item {n : Nat} {ts : List TokenKind} {p : Pattern} :
    Derives .item n ts p →
    Derives .repeated n ts p
  | plus {n : Nat} {ts : List TokenKind} {p : Pattern} :
    Derives .repeated n ts p →
    Derives .repeated n (ts ++ [.plus]) (seq p (star p))
  | question {n : Nat} {ts : List TokenKind} {p : Pattern} :
    Derives .repeated n ts p →
    Derives .repeated n (ts ++ [.question]) (maybe p)
  | star {n : Nat} {ts : List TokenKind} {p : Pattern} :
    Derives .repeated n ts p →
    Derives .repeated n (ts ++ [.star]) (star p)
  | event {name : String} {ts : List TokenKind} {cs : List (String × String)} :
    Braces ts cs →
    Derives .item 0 (.ident name :: ts) (event ⟨name, .ofList cs⟩)
  | any :
    Derives .item 0 [.dot] (event .any)
  | empty :
    Derives .item 0 [.openParen, .closeParen] empty
  | group {n : Nat} {ts : List TokenKind} {p : Pattern} :
    Derives .alternatives n ts p →
    Derives .item (n + 1) (.openParen :: (ts ++ [.closeParen])) p

end Rules

variable {k : Phrase} {n m depth : Nat} {us vs : List TokenKind} {p q : Pattern}

/-- Whether an item can begin with a token. -/
def beginsItem : TokenKind → Bool
  | .ident _ | .dot | .openParen => true
  | _ => false

lemma Derives.exists_head (h : Derives k n us p) :
    ∃ kind vs, us = kind :: vs ∧ beginsItem kind = true := by
  induction h with
  | sequence _ ih => exact ih
  | repeated _ ih => exact ih
  | item _ ih => exact ih
  | bar _ _ ih _ | comma _ _ ih _ | next _ _ ih _ | plus _ ih | question _ ih | star _ ih =>
    obtain ⟨kind, vs, rfl, h⟩ := ih
    exact ⟨kind, _, rfl, h⟩
  | event _ => exact ⟨_, _, rfl, rfl⟩
  | any => exact ⟨_, _, rfl, rfl⟩
  | empty => exact ⟨_, _, rfl, rfl⟩
  | group _ _ => exact ⟨_, _, rfl, rfl⟩

lemma Derives.length_pos (h : Derives k n us p) : 0 < us.length := by
  obtain ⟨_, _, rfl, -⟩ := h.exists_head
  exact Nat.succ_pos _

section Nesting

variable {cs : List (String × String)}

/-- How deep groups nest from a depth on; the empty group is no level of its own. -/
def deepest (depth : Nat) : List TokenKind → Nat
  | [] => depth
  | .openParen :: .closeParen :: us => deepest depth us
  | .openParen :: us => deepest (depth + 1) us
  | .closeParen :: us => max depth (deepest (depth - 1) us)
  | _ :: us => deepest depth us

lemma le_deepest : depth ≤ deepest depth us := by
  fun_induction deepest depth us with
  | case1 => exact le_refl _
  | case2 _ _ ih => exact ih
  | case3 _ _ _ ih => exact (Nat.le_succ _).trans ih
  | case4 => exact le_max_left ..
  | case5 _ _ _ _ _ _ ih => exact ih

lemma Conditions.deepest_append (h : Conditions us cs) :
    deepest depth (us ++ vs) = deepest depth vs := by
  induction h with
  | last hv => cases hv <;> rfl
  | more hv _ ih =>
    cases hv with
    | quoted => exact ih
    | any => exact ih

lemma Braces.deepest_append (h : Braces us cs) : deepest depth (us ++ vs) = deepest depth vs := by
  cases h with
  | none => rfl
  | empty => rfl
  | some h =>
    rw [List.cons_append, List.append_assoc]
    exact h.deepest_append

lemma deepest_eq_max : deepest depth us = max (depth + 0) (deepest depth us) :=
  (max_eq_right le_deepest).symm

lemma deepest_openParen {kind : TokenKind} (h : beginsItem kind = true) :
    deepest depth (.openParen :: kind :: us) = deepest (depth + 1) (kind :: us) := by
  cases kind
  case ident => rfl
  case dot => rfl
  case openParen => rfl
  all_goals cases h

lemma max_add_max {a : Nat} : max (depth + n) (max (depth + m) a) = max (depth + max n m) a := by
  omega

/-- Groups around a phrase add to the depth to which its own nest. -/
lemma Derives.deepest_append (h : Derives k n us p) (depth : Nat) (vs : List TokenKind) :
    deepest depth (us ++ vs) = max (depth + n) (deepest depth vs) := by
  induction h generalizing depth vs with
  | sequence _ ih => exact ih depth vs
  | repeated _ ih => exact ih depth vs
  | item _ ih => exact ih depth vs
  | @bar n m ts us _ _ _ _ ih ih' =>
    rw [List.append_assoc, ih]
    show max (depth + n) (deepest depth (us ++ vs)) = _
    rw [ih', max_add_max]
  | @comma n m ts us _ _ _ _ ih ih' =>
    rw [List.append_assoc, ih]
    show max (depth + n) (deepest depth (us ++ vs)) = _
    rw [ih', max_add_max]
  | next _ _ ih ih' => rw [List.append_assoc, ih, ih', max_add_max]
  | plus _ ih =>
    rw [List.append_assoc, ih]
    rfl
  | question _ ih =>
    rw [List.append_assoc, ih]
    rfl
  | star _ ih =>
    rw [List.append_assoc, ih]
    rfl
  | event h => exact h.deepest_append.trans deepest_eq_max
  | any => exact deepest_eq_max
  | empty => exact deepest_eq_max
  | @group n us _ h ih =>
    obtain ⟨kind, ws, rfl, begins⟩ := h.exists_head
    have inside : deepest depth (.openParen :: (kind :: ws ++ [.closeParen]) ++ vs) =
        deepest (depth + 1) (kind :: ws ++ (.closeParen :: vs)) := by
      rw [List.cons_append, List.append_assoc]
      exact deepest_openParen begins
    rw [inside, ih]
    show max (depth + 1 + n) (max (depth + 1) (deepest depth vs)) = _
    omega

/-- The tokens of a phrase tell how deep its groups nest. -/
lemma Derives.nesting_unique (h : Derives k n us p) (h' : Derives k m us q) : n = m := by
  have e := (h.deepest_append 0 []).symm.trans (h'.deepest_append 0 [])
  simpa [deepest] using e

end Nesting

end Interleaving.Pattern
