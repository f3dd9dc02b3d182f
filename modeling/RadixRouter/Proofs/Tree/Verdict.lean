import RadixRouter.Proofs.Pattern.Clash
import RadixRouter.Proofs.Tree.Sound

/-!
What the outcome of a registration says about the routes that were there: some route is the cause of
a refusal, and every route admits the outcome.
-/

namespace RadixRouter

open Pattern

variable {α : Type}

/-! ### Outcomes and single routes -/

/-- Whether a refusal is about `pattern`; a tree does not know its method. -/
def RouteError.Concerns (pattern : Text) : RouteError → Prop
  | .duplicate method path => method = [] ∧ path = pattern
  | .wildcardConflict _ path _ _ => path = pattern
  | .catchAllConflict path _ => path = pattern
  | _ => False

/-- Whether the route `p` is a cause of such a refusal of `q`. -/
def RouteError.CausedBy (p q : List Token) : RouteError → Prop
  | .duplicate _ _ => p = q
  | .wildcardConflict _ _ _ _ => WildcardsClashTokens p q
  | .catchAllConflict _ _ => CatchAllClashTokens p q
  | _ => False

/-- Whether a refusal quotes the wildcards rightly at which `p`, of the tree, and `q` part. -/
def Quotes (above : Text) (p q : List Token) (segment existing front : Text) : Prop :=
  ∀ v later w back, part p q = (v :: later, w :: back) → v.isWild = true → w.isWild = true →
    segment = (if v.isCatchAll then (w :: back).flatMap Token.write else w.write)
      ∧ existing = v.write
      ∧ front = above ++ (shared p q).flatMap Token.write ++ v.write

/-- Whether a tree that has the route `p` behind `above` may answer the registration of `q` so. -/
def Admits (above : Text) (p q : List Token) : Except RouteError Unit → Prop
  | .ok () => Compatible p q
  | .error (.wildcardConflict segment _ existing front) =>
      p ≠ q ∧ Quotes above p q segment existing front
  | .error (.catchAllConflict _ _) => p ≠ q ∧ ¬ WildcardsClashTokens p q
  | .error _ => True

theorem RouteError.CausedBy.append {p q : List Token} {fault : RouteError} (front : List Token)
    (h : fault.CausedBy p q) : fault.CausedBy (front ++ p) (front ++ q) := by
  cases fault with
  | duplicate method path => exact congrArg (front ++ ·) h
  | wildcardConflict segment path existing end' =>
      exact (wildcardsClashTokens_append_iff front).mpr h
  | catchAllConflict path existing => exact (catchAllClashTokens_append_iff front).mpr h
  | _ => exact h

namespace Admits

variable {above written : Text} {front p q : List Token} {result : Except RouteError Unit}

theorem append (hwritten : front.flatMap Token.write = written)
    (h : Admits (above ++ written) p q result) :
    Admits above (front ++ p) (front ++ q) result := by
  have hcancel : front ++ p = front ++ q → p = q := List.append_cancel_left
  cases result with
  | ok _ => exact Compatible.append front h
  | error fault =>
      cases fault with
      | wildcardConflict segment path existing end' =>
          refine ⟨fun heq => h.1 (hcancel heq), ?_⟩
          intro v later w back hpart hv hw
          rw [part_append] at hpart
          obtain ⟨hsegment, hexisting, hend⟩ := h.2 v later w back hpart hv hw
          refine ⟨hsegment, hexisting, ?_⟩
          rw [hend, shared_append, List.flatMap_append, hwritten]
          simp only [List.append_assoc]
      | catchAllConflict path existing =>
          exact ⟨fun heq => h.1 (hcancel heq),
            fun hclash => h.2 ((wildcardsClashTokens_append_iff front).mp hclash)⟩
      | _ => exact h

/-- A route that tolerates the new one admits every outcome. -/
theorem of_compatible (h : Compatible p q) (result : Except RouteError Unit) :
    Admits above p q result := by
  cases result with
  | ok _ => exact h
  | error fault =>
      cases fault with
      | wildcardConflict segment path existing end' =>
          refine ⟨h.ne, ?_⟩
          intro v later w back hpart hv hw
          exact (h.wildcards ⟨v, later, w, back, hv, hw, hpart⟩).elim
      | catchAllConflict path existing => exact ⟨h.ne, h.wildcards⟩
      | _ => trivial

end Admits

/-! ### Outcomes and all routes -/

/-- What the outcome of a registration of `pattern`, of which `q` is left behind `above`, says about
the routes there: some route is the cause of a refusal, and every route admits the outcome. -/
structure Judges (above pattern : Text) (q : List Token) (entries : List (Entry α))
    (result : Except RouteError Unit) : Prop where
  concerns : ∀ fault, result = .error fault → fault.Concerns pattern
  caused : ∀ fault, result = .error fault → ∃ entry ∈ entries, fault.CausedBy entry.tokens q
  admits : ∀ entry ∈ entries, Admits above entry.tokens q result

namespace Judges

variable {above pattern written : Text} {front q : List Token} {entries entries' : List (Entry α)}
  {result : Except RouteError Unit}

theorem accepted (h : ∀ entry ∈ entries, Compatible entry.tokens q) :
    Judges above pattern q entries (.ok ()) :=
  ⟨by simp, by simp, h⟩

theorem refused {fault : RouteError} {entry : Entry α} (hconcerns : fault.Concerns pattern)
    (hentry : entry ∈ entries) (hcaused : fault.CausedBy entry.tokens q)
    (hadmits : ∀ entry ∈ entries, Admits above entry.tokens q (.error fault)) :
    Judges above pattern q entries (.error fault) := by
  refine ⟨?_, ?_, hadmits⟩
  · rintro _ ⟨⟩
    exact hconcerns
  · rintro _ ⟨⟩
    exact ⟨entry, hentry, hcaused⟩

/-- The outcome behind a label or a parameter is the outcome in front of it. -/
theorem under (hwritten : front.flatMap Token.write = written)
    (h : Judges (above ++ written) pattern q entries result) :
    Judges above pattern (front ++ q) (entries.map (Entry.under front)) result := by
  refine ⟨h.concerns, ?_, ?_⟩
  · intro fault hfault
    obtain ⟨entry, hentry, hcaused⟩ := h.caused fault hfault
    exact ⟨entry.under front, List.mem_map_of_mem hentry, hcaused.append front⟩
  · intro entry hentry
    obtain ⟨inner, hinner, rfl⟩ := List.mem_map.mp hentry
    exact (h.admits inner hinner).append hwritten

/-- Routes that tolerate the new one make no difference. -/
theorem widen (h : Judges above pattern q entries result)
    (hsub : ∀ entry ∈ entries, entry ∈ entries')
    (hnew : ∀ entry ∈ entries', entry ∈ entries ∨ Compatible entry.tokens q) :
    Judges above pattern q entries' result := by
  refine ⟨h.concerns, ?_, ?_⟩
  · intro fault hfault
    obtain ⟨entry, hentry, hcaused⟩ := h.caused fault hfault
    exact ⟨entry, hsub entry hentry, hcaused⟩
  · intro entry hentry
    rcases hnew entry hentry with hold | hcompatible
    · exact h.admits entry hold
    · exact Admits.of_compatible hcompatible result

end Judges

/-! ### Outcomes and accepted patterns -/

/-- How the registration of `q` ends where `patterns` are accepted already. -/
structure Pattern.Settles (patterns : List Text) (q : Text) (outcome : Except RouteError Unit) :
    Prop where
  accepted : outcome = .ok ()
    ↔ q ∉ patterns ∧ ∀ p ∈ patterns, ¬ WildcardsClash p q ∧ ¬ CatchAllClash p q
  duplicate : outcome = .error (.duplicate [] q) ↔ q ∈ patterns
  wildcard : (∃ segment existing front,
      outcome = .error (.wildcardConflict segment q existing front))
    ↔ q ∉ patterns ∧ ∃ p ∈ patterns, WildcardsClash p q
  quoted : ∀ segment path existing front,
    outcome = .error (.wildcardConflict segment path existing front) →
    ∀ p ∈ patterns, Quotes [] (tokens p) (tokens q) segment existing front
  catchAll : (∃ existing, outcome = .error (.catchAllConflict q existing))
    ↔ q ∉ patterns ∧ (∀ p ∈ patterns, ¬ WildcardsClash p q) ∧ ∃ p ∈ patterns, CatchAllClash p q

/-- The routes of a tree and their patterns say the same. -/
theorem Judges.settles {q : Text} {entries : List (Entry α)} {patterns : List Text}
    {outcome : Except RouteError Unit} (h : Judges [] q (tokens q) entries outcome)
    (hpatterns : (entries.map Entry.tokens).Perm (patterns.map tokens)) :
    Settles patterns q outcome := by
  have hadmits : ∀ p ∈ patterns, Admits [] (tokens p) (tokens q) outcome := by
    intro p hp
    have hmem := hpatterns.mem_iff.mpr (List.mem_map_of_mem hp)
    obtain ⟨entry, hentry, heq⟩ := List.mem_map.mp hmem
    exact heq ▸ h.admits entry hentry
  have hcaused : ∀ fault, outcome = .error fault →
      ∃ p ∈ patterns, fault.CausedBy (tokens p) (tokens q) := by
    intro fault hfault
    obtain ⟨entry, hentry, hcause⟩ := h.caused fault hfault
    have hmem := hpatterns.mem_iff.mp (List.mem_map_of_mem hentry)
    obtain ⟨p, hp, heq⟩ := List.mem_map.mp hmem
    exact ⟨p, hp, heq ▸ hcause⟩
  have hconcerns := h.concerns
  cases outcome with
  | ok _ =>
      have hnew : q ∉ patterns := fun hq => (hadmits q hq).ne rfl
      have hwildcards : ∀ p ∈ patterns, ¬ WildcardsClash p q := fun p hp => (hadmits p hp).wildcards
      have hcatchAll : ∀ p ∈ patterns, ¬ CatchAllClash p q := fun p hp => (hadmits p hp).catchAll
      constructor
      · simpa [hnew] using fun p hp => ⟨hwildcards p hp, hcatchAll p hp⟩
      · simpa using hnew
      · simpa using fun _ => hwildcards
      · simp
      · simpa using fun _ _ => hcatchAll
  | error fault =>
      obtain ⟨p, hp, hcause⟩ := hcaused fault rfl
      have hfault := hconcerns fault rfl
      cases fault with
      | duplicate method path =>
          obtain ⟨rfl, rfl⟩ := hfault
          have hq : path ∈ patterns := tokens_injective hcause ▸ hp
          constructor <;> simp [hq]
      | wildcardConflict segment path existing front =>
          cases hfault
          have hnew : q ∉ patterns := fun hq => (hadmits q hq).1 rfl
          have hclash : ∃ p ∈ patterns, WildcardsClash p q := ⟨p, hp, hcause⟩
          constructor
          · simpa [hnew] using ⟨p, hp, fun hnone => (hnone hcause).elim⟩
          · simpa using hnew
          · simpa [hnew] using hclash
          · rintro _ _ _ _ ⟨⟩ p hp
            exact (hadmits p hp).2
          · simpa using fun _ hnone => (hnone p hp hcause).elim
      | catchAllConflict path existing =>
          cases hfault
          have hnew : q ∉ patterns := fun hq => (hadmits q hq).1 rfl
          have hwildcards : ∀ p ∈ patterns, ¬ WildcardsClash p q := fun p hp => (hadmits p hp).2
          constructor
          · simpa [hnew] using ⟨p, hp, fun _ => hcause⟩
          · simpa using hnew
          · simpa using fun _ => hwildcards
          · simp
          · simpa [hnew] using ⟨hwildcards, p, hp, hcause⟩
      | _ => exact hfault.elim

/-- A refusal without what a catch-all conflict quotes: that is the pattern noted at the first of the
places in the way, and both which one is first and where labels were cut depend on the history. -/
def RouteError.unquoted : RouteError → RouteError
  | .catchAllConflict path _ => .catchAllConflict path []
  | other => other

/-- What is accepted already settles the outcome, in whatever order it was accepted. -/
theorem Pattern.Settles.mapError_eq {patterns patterns' : List Text} {q : Text}
    {outcome outcome' : Except RouteError Unit} (h : Settles patterns q outcome)
    (h' : Settles patterns' q outcome') (hsame : ∀ p, p ∈ patterns ↔ p ∈ patterns') :
    outcome.mapError RouteError.unquoted = outcome'.mapError RouteError.unquoted := by
  by_cases hmem : q ∈ patterns
  · rw [h.duplicate.mpr hmem, h'.duplicate.mpr ((hsame q).mp hmem)]
  · have hmem' : q ∉ patterns' := fun hq => hmem ((hsame q).mpr hq)
    by_cases hwild : ∃ p ∈ patterns, WildcardsClash p q
    · obtain ⟨p, hp, v, later, w, back, hv, hw, hpart⟩ := hwild
      have hp' := (hsame p).mp hp
      have hclash : WildcardsClash p q := ⟨v, later, w, back, hv, hw, hpart⟩
      obtain ⟨segment, existing, front, heq⟩ := h.wildcard.mpr ⟨hmem, p, hp, hclash⟩
      obtain ⟨segment', existing', front', heq'⟩ := h'.wildcard.mpr ⟨hmem', p, hp', hclash⟩
      obtain ⟨rfl, rfl, rfl⟩ := h.quoted _ _ _ _ heq p hp v later w back hpart hv hw
      obtain ⟨rfl, rfl, rfl⟩ := h'.quoted _ _ _ _ heq' p hp' v later w back hpart hv hw
      rw [heq, heq']
    · have hnone : ∀ p ∈ patterns, ¬ WildcardsClash p q := fun p hp hclash => hwild ⟨p, hp, hclash⟩
      have hnone' : ∀ p ∈ patterns', ¬ WildcardsClash p q :=
        fun p hp => hnone p ((hsame p).mpr hp)
      by_cases hcatch : ∃ p ∈ patterns, CatchAllClash p q
      · obtain ⟨p, hp, hclash⟩ := hcatch
        obtain ⟨existing, heq⟩ := h.catchAll.mpr ⟨hmem, hnone, p, hp, hclash⟩
        obtain ⟨existing', heq'⟩ := h'.catchAll.mpr ⟨hmem', hnone', p, (hsame p).mp hp, hclash⟩
        rw [heq, heq']
        rfl
      · have hfree : ∀ p ∈ patterns, ¬ CatchAllClash p q :=
          fun p hp hclash => hcatch ⟨p, hp, hclash⟩
        rw [h.accepted.mpr ⟨hmem, fun p hp => ⟨hnone p hp, hfree p hp⟩⟩,
          h'.accepted.mpr ⟨hmem', fun p hp => ⟨hnone' p hp, hfree p ((hsame p).mpr hp)⟩⟩]

end RadixRouter
