import RadixRouter.Proofs.Pattern.Fill
import RadixRouter.Proofs.Tree.Repair

/-!
The spelling of a repaired path: the one of a route where the route is literal, and the one of the
given path where a wildcard takes it.
-/

namespace RadixRouter

open Pattern

variable {α : Type}

namespace Pattern

/-- Whether each value stands in `path` at the place of the wildcard that it is for. -/
def Verbatim : List Token → List Text → Text → Prop
  | [], _, _ => True
  | .char _ :: tokens, values, path => Verbatim tokens values (path.drop 1)
  | _ :: tokens, values, path =>
      values.head?.getD [] <+: path
        ∧ Verbatim tokens values.tail (path.drop (values.head?.getD []).length)

/-- Whether `repaired` is the text of the tokens with text of `path` in the place of the wildcards:
the bindings are one for each wildcard, give `repaired` when they are put in, and stand in `path` at
the same places. -/
structure Respells (tokens : List Token) (params : Params) (path repaired : Text) : Prop
    extends Rebuilds tokens params repaired where
  verbatim : Verbatim tokens (params.map Param.value) path

namespace Respells

variable {tokens : List Token} {params : Params} {path repaired name value : Text}

theorem nil (path : Text) : Respells [] [] path [] :=
  ⟨⟨List.Forall₂.nil, rfl⟩, trivial⟩

theorem char (c : Char) (h : Respells tokens params (path.drop 1) repaired) :
    Respells (.char c :: tokens) params path (c :: repaired) :=
  ⟨h.toRebuilds.char c, h.verbatim⟩

theorem chars (label : Text) (h : Respells tokens params (path.drop label.length) repaired) :
    Respells (label.map .char ++ tokens) params path (label ++ repaired) := by
  induction label generalizing path with
  | nil => exact h
  | cons c label ih =>
      apply char c
      apply ih
      rwa [List.drop_drop, Nat.add_comm]

theorem param (name : Text) (hne : value ≠ []) (hslash : '/' ∉ value)
    (h : Respells tokens params path repaired) :
    Respells (.param name :: tokens) (⟨name, value⟩ :: params) (value ++ path)
      (value ++ repaired) := by
  refine ⟨h.toRebuilds.param hne hslash, List.prefix_append value path, ?_⟩
  change Verbatim tokens (params.map Param.value) ((value ++ path).drop value.length)
  rw [List.drop_left]
  exact h.verbatim

theorem catchAll (name : Text) (hfront : repaired <+: path) :
    Respells [.catchAll name] [⟨name, repaired⟩] path repaired :=
  ⟨Rebuilds.catchAll name repaired, hfront, trivial⟩

end Respells

end Pattern

/-- Whether `repaired` spells one of the routes, with text of `path` for its wildcards. -/
def Respelled (entries : List (Entry α)) (path repaired : Text) : Prop :=
  ∃ entry ∈ entries, ∃ params, Respells entry.tokens params path repaired

namespace Respelled

variable {entries entries' : List (Entry α)} {label path repaired : Text}

theorem mono (hsub : ∀ entry ∈ entries, entry ∈ entries') (h : Respelled entries path repaired) :
    Respelled entries' path repaired := by
  obtain ⟨entry, hentry, hspells⟩ := h
  exact ⟨entry, hsub entry hentry, hspells⟩

theorem under_chars (label : Text) (h : Respelled entries (path.drop label.length) repaired) :
    Respelled (entries.map (Entry.under (label.map .char))) path (label ++ repaired) := by
  obtain ⟨entry, hentry, params, hspells⟩ := h
  exact ⟨entry.under _, List.mem_map_of_mem hentry, params, hspells.chars label⟩

theorem under_param (name : Text) {value : Text} (hne : value ≠ []) (hslash : '/' ∉ value)
    (h : Respelled entries path repaired) :
    Respelled (entries.map (Entry.under [.param name])) (value ++ path) (value ++ repaired) := by
  obtain ⟨entry, hentry, params, hspells⟩ := h
  exact ⟨entry.under _, List.mem_map_of_mem hentry, _, hspells.param name hne hslash⟩

end Respelled

/-- Where a path may end, nothing is left to spell. -/
theorem Node.respelled_of_terminates {node : Node α} (hends : node.terminates = true)
    (path : Text) : Respelled node.entries path [] := by
  cases node with
  | mk held pattern priority ways =>
      cases held with
      | some value => exact ⟨⟨[], value⟩, by simp, [], Respells.nil path⟩
      | none =>
          obtain ⟨⟨name, value, pattern'⟩, hcatch⟩ :
              ∃ existing, ways.catchAll? = some existing := by
            simpa [terminates, Node.value, Node.ways, Option.isSome_iff_exists] using hends
          have hentry := Ways.mem_entries_of_catchAll? hcatch
          exact ⟨_, by simpa using hentry, _, Respells.catchAll name List.nil_prefix⟩

theorem Ways.respelled_of_hasSlashLeaf {ways : Ways α} (hleaf : ways.hasSlashLeaf = true)
    (path : Text) : Respelled ways.entries path ['/'] := by
  cases ways with
  | none => simp [hasSlashLeaf] at hleaf
  | literal label next others =>
      rw [hasSlashLeaf, Bool.or_eq_true, Bool.and_eq_true, decide_eq_true_eq] at hleaf
      rw [entries_literal]
      rcases hleaf with ⟨rfl, hends⟩ | hleaf
      · have hnext := (Node.respelled_of_terminates hends (path.drop 1)).under_chars ['/']
        exact hnext.mono fun entry => List.mem_append_left _
      · exact (respelled_of_hasSlashLeaf hleaf path).mono fun entry => List.mem_append_right _
  | param name next => simp [hasSlashLeaf] at hleaf
  | catchAll name value pattern => simp [hasSlashLeaf] at hleaf

theorem Node.repairAlong_respelled {label path repaired : Text} {node : Node α} {fixSlash : Bool}
    {deeper : Text → Option Text}
    (hdeeper : ∀ rest inner, deeper rest = some inner → Respelled node.entries rest inner)
    (hrepair : repairAlong fixSlash label node path deeper = some repaired) :
    Respelled (node.entries.map (Entry.under (label.map .char))) path repaired := by
  unfold repairAlong at hrepair
  split at hrepair
  · next rest hafter =>
      obtain ⟨head, rfl, hfold⟩ := Text.afterFold?_eq_some_iff.mp hafter
      obtain ⟨inner, hinner, rfl⟩ := Option.map_eq_some_iff.mp hrepair
      apply Respelled.under_chars
      rw [← hfold.length_eq, List.drop_left]
      exact hdeeper rest inner hinner
  · split at hrepair
    · next hslash =>
        cases hrepair
        rw [Bool.and_eq_true] at hslash
        have hends := Node.respelled_of_terminates hslash.2 (path.drop label.length)
        simpa using hends.under_chars label
    · contradiction

-- Induction on the tree: the repair at a place comes from one of its ways, or ends there.
mutual

theorem Node.repair_respelled {node : Node α} : ∀ {fixSlash : Bool} {path repaired : Text},
    node.repair fixSlash path = some repaired → Respelled node.entries path repaired := by
  intro fixSlash path repaired hrepair
  cases path with
  | nil =>
      rw [Node.repair_nil] at hrepair
      split at hrepair
      · next hends =>
          cases hrepair
          exact Node.respelled_of_terminates hends []
      · split at hrepair
        · next hslash =>
            cases hrepair
            rw [Bool.and_eq_true] at hslash
            have hleaf := Ways.respelled_of_hasSlashLeaf hslash.2 []
            exact hleaf.mono fun entry => Node.mem_entries_of_mem_ways
        · contradiction
  | cons c rest =>
      cases node with
      | mk held pattern priority ways =>
          rw [Node.repair_cons, Option.or_eq_some_iff] at hrepair
          rcases hrepair with hways | ⟨-, hheld⟩
          · have hspelled := Ways.repair_respelled hways
            exact hspelled.mono fun entry hentry => by simp [hentry]
          · split at hheld
            · next hslash =>
                cases hheld
                rw [Bool.and_eq_true] at hslash
                obtain ⟨value, rfl⟩ := Option.isSome_iff_exists.mp hslash.2
                exact ⟨⟨[], value⟩, by simp, [], Respells.nil _⟩
            · contradiction

theorem Ways.repair_respelled {ways : Ways α} : ∀ {fixSlash : Bool} {path repaired : Text},
    ways.repair fixSlash path = some repaired → Respelled ways.entries path repaired := by
  intro fixSlash path repaired hrepair
  cases ways with
  | none => simp [Ways.repair] at hrepair
  | literal label next others =>
      rw [Ways.repair_literal, Option.or_eq_some_iff] at hrepair
      rw [Ways.entries_literal]
      rcases hrepair with halong | ⟨-, hothers⟩
      · have hspelled := Node.repairAlong_respelled
          (fun rest inner hinner => Node.repair_respelled hinner) halong
        exact hspelled.mono fun entry => List.mem_append_left _
      · exact (Ways.repair_respelled hothers).mono fun entry => List.mem_append_right _
  | param name next =>
      rw [Ways.repair] at hrepair
      split at hrepair
      · contradiction
      · next hsegment =>
          obtain ⟨inner, hinner, rfl⟩ := Option.map_eq_some_iff.mp hrepair
          have hspelled := (Node.repair_respelled hinner).under_param name hsegment
            (not_mem_upTo path)
          rwa [Text.upTo_append_fromNext, ← Ways.entries_param] at hspelled
  | catchAll name value pattern =>
      rw [Ways.repair] at hrepair
      cases hrepair
      exact ⟨⟨[.catchAll name], value⟩, by simp, _, Respells.catchAll name (List.prefix_refl _)⟩

end

theorem Tree.repair_respelled {tree : Tree α} {fixSlash : Bool} {path repaired : Text}
    (hrepair : tree.repair fixSlash path = some repaired) :
    Respelled tree.entries path repaired := by
  cases tree with
  | empty => simp [Tree.repair] at hrepair
  | root label node =>
      exact Node.repairAlong_respelled
        (fun rest inner hinner => Node.repair_respelled hinner) hrepair

namespace Tree

/-- A path is repaired if and only if one that is near to it resolves. The repaired path resolves
and is near to it, and it is a registered pattern with text of the given path for its wildcards. -/
theorem ofHistory_repair_respells (history : List (Text × α)) (fixSlash : Bool) (path : Text) :
    (((ofHistory history).repair fixSlash path).isSome = true
        ↔ ∃ other, Text.Near fixSlash path other
          ∧ ((ofHistory history).lookup other).isHit = true)
      ∧ ∀ repaired, (ofHistory history).repair fixSlash path = some repaired →
        ((ofHistory history).lookup repaired).isHit = true
          ∧ Text.Near fixSlash path repaired
          ∧ ∃ route ∈ routesOf history, ∃ params,
            Respells (tokens route.1) params path repaired := by
  have hholds := holds_ofHistory history
  simp only [hholds.isHit_iff]
  refine ⟨hholds.repair_isSome_iff fixSlash path, ?_⟩
  intro repaired hrepair
  obtain ⟨hnear, hmatched⟩ := hholds.repair_sound hrepair
  refine ⟨hmatched, hnear, ?_⟩
  obtain ⟨entry, hentry, hspells⟩ := repair_respelled hrepair
  obtain ⟨route, hroute, rfl⟩ := hholds.mem_entries_iff.mp hentry
  exact ⟨route, hroute, hspells⟩

/-- Two patterns that begin with the same letters but for their case. -/
def signposts : List (Text × Nat) :=
  [("/Search/:Term/".toList, 1), ("/sea/*chart".toList, 2)]

/-- The letters of the pattern are put right, those in the place of the wildcard are left alone, and
the slash that is missing is added. -/
theorem signposts_repair_respells :
    (ofHistory signposts).repair true "/SEARCH/GoPher".toList = some "/Search/GoPher/".toList
      ∧ ((ofHistory signposts).lookup "/Search/GoPher/".toList).isHit = true
      ∧ Text.Near true "/SEARCH/GoPher".toList "/Search/GoPher/".toList
      ∧ ∃ route ∈ routesOf signposts, ∃ params,
        Respells (tokens route.1) params "/SEARCH/GoPher".toList "/Search/GoPher/".toList := by
  have hrepair : (ofHistory signposts).repair true "/SEARCH/GoPher".toList
      = some "/Search/GoPher/".toList := by decide +kernel
  exact ⟨hrepair, (ofHistory_repair_respells signposts true _).2 _ hrepair⟩

end Tree

end RadixRouter
