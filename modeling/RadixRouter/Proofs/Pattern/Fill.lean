import Mathlib.Data.List.Forall2
import RadixRouter.Proofs.Pattern.Match

/-!
A pattern with values in the place of its wildcards. The bindings of a match are the values that
give the path back, and a path that is made of a pattern and values binds these values.
-/

namespace RadixRouter.Pattern

/-- Whether a binding may stand for a wildcard: it has the wildcard's name, and one path element is
neither empty nor does it hold a slash. -/
def Token.Binds : Token → Param → Prop
  | .char _, _ => False
  | .param name, binding => binding.name = name ∧ binding.value ≠ [] ∧ '/' ∉ binding.value
  | .catchAll name, binding => binding.name = name

/-- The text of the tokens with the values in the place of the wildcards, from left to right. -/
def fill : List Token → List Text → Text
  | [], _ => []
  | .char c :: tokens, values => c :: fill tokens values
  | _ :: tokens, values => values.head?.getD [] ++ fill tokens values.tail

/-- Whether the bindings are one for each wildcard, in order, and give `path` when they are put
in. -/
structure Rebuilds (tokens : List Token) (params : Params) (path : Text) : Prop where
  bindings : List.Forall₂ Token.Binds (tokens.filter Token.isWild) params
  whole : fill tokens (params.map Param.value) = path

namespace Rebuilds

variable {tokens : List Token} {params : Params} {path : Text}

theorem char (c : Char) (h : Rebuilds tokens params path) :
    Rebuilds (.char c :: tokens) params (c :: path) :=
  ⟨h.bindings, congrArg (c :: ·) h.whole⟩

theorem param {name value : Text} (hne : value ≠ []) (hslash : '/' ∉ value)
    (h : Rebuilds tokens params path) :
    Rebuilds (.param name :: tokens) (⟨name, value⟩ :: params) (value ++ path) :=
  ⟨List.Forall₂.cons ⟨rfl, hne, hslash⟩ h.bindings, congrArg (value ++ ·) h.whole⟩

theorem catchAll (name path : Text) : Rebuilds [.catchAll name] [⟨name, path⟩] path :=
  ⟨List.Forall₂.cons rfl List.Forall₂.nil, List.append_nil path⟩

/-- The bindings of a match give the path back. -/
theorem of_bind? (h : bind? tokens path = some params) : Rebuilds tokens params path := by
  induction tokens generalizing path params with
  | nil =>
      rw [bind?_nil] at h
      split at h
      · next hempty =>
          cases h
          exact ⟨List.Forall₂.nil, hempty.symm⟩
      · contradiction
  | cons token tokens ih =>
      cases token with
      | char c =>
          cases path with
          | nil => contradiction
          | cons d path =>
              rw [bind?] at h
              split at h
              · next hsame => exact hsame ▸ (ih h).char c
              · contradiction
      | param name =>
          rw [bind?_param] at h
          split at h
          · contradiction
          · next hsegment =>
              obtain ⟨later, hlater, rfl⟩ := Option.map_eq_some_iff.mp h
              have hbound : Rebuilds (.param name :: tokens) _ _ :=
                (ih hlater).param hsegment (not_mem_upTo path)
              rwa [Text.upTo_append_fromNext] at hbound
      | catchAll name =>
          by_cases hlast : tokens = []
          · subst hlast
            rw [bind?_catchAll] at h
            cases h
            exact catchAll name path
          · simp [bind?, hlast] at h

end Rebuilds

/-! ### Putting values in -/

theorem elementEnds_fill {rest : Text} (hends : ElementEnds rest) (values : List Text) :
    ElementEnds (fill (tokens rest) values) := by
  cases rest with
  | nil => simp [ElementEnds, fill]
  | cons c rest =>
      have hc : c = '/' := hends c rfl
      subst hc
      rw [tokens_cons (by rfl), fill]
      exact hends

/-- A pattern with values in it is matched by that pattern, and the values are the bindings. -/
theorem Follows.bind?_fill {above pattern : Text} (h : Follows above pattern) {params : Params}
    (hbindings : List.Forall₂ Token.Binds ((tokens pattern).filter Token.isWild) params) :
    bind? (tokens pattern) (fill (tokens pattern) (params.map Param.value)) = some params := by
  induction h generalizing params with
  | nil =>
      rw [tokens_nil] at hbindings ⊢
      cases hbindings
      rfl
  | char plain next ih =>
      rw [tokens_cons plain] at hbindings ⊢
      simpa [fill, bind?] using ih hbindings
  | @param _ name rest _ named ends next whole ih =>
      subst whole
      rw [tokens_param named.no_slash ends] at hbindings ⊢
      cases hbindings with
      | @cons _ binding _ later hbinds hlater =>
          obtain ⟨rfl, hne, hslash⟩ := hbinds
          have hends := elementEnds_fill ends (later.map Param.value)
          change bind? _ (binding.value ++ fill (tokens rest) (later.map Param.value)) = _
          rw [bind?_param, upTo_append hslash hends, fromNext_append hslash hends, if_neg hne,
            ih hlater, Option.map_some]
  | @catchAll _ name named behind =>
      rw [tokens_catchAll named.no_slash] at hbindings ⊢
      cases hbindings with
      | @cons _ binding _ later hbinds hlater =>
          cases hlater
          obtain rfl : binding.name = name := hbinds
          change bind? _ (binding.value ++ []) = _
          rw [List.append_nil, bind?_catchAll]

end RadixRouter.Pattern
