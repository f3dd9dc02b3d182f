import RadixRouter.Proofs.Tree.Insert
import RadixRouter.Tree.History

/-!
Every tree that comes about by registrations is sound, and its routes are those that were accepted.
-/

namespace RadixRouter.Tree

open Pattern

variable {α : Type}

/-- A sound tree of the given routes. -/
structure Holds (tree : Tree α) (routes : List (Text × α)) : Prop where
  sound : tree.Sound
  entries : tree.entries.Perm (routes.map Entry.ofRoute)

theorem holds_empty : Holds (α := α) empty [] :=
  ⟨trivial, List.Perm.refl _⟩

theorem Holds.mem_entries_iff {tree : Tree α} {routes : List (Text × α)} (h : tree.Holds routes)
    {entry : Entry α} :
    entry ∈ tree.entries ↔ ∃ route ∈ routes, Entry.ofRoute route = entry := by
  rw [h.entries.mem_iff, List.mem_map]

/-- A first route makes a sound tree of that route. -/
theorem plant_sound {pattern : Text} (value : α) (hslash : pattern.head? = some '/')
    (hfollows : Follows [] pattern) :
    (plant pattern value).Sound
      ∧ (plant pattern value).entries = [Entry.ofRoute (pattern, value)] := by
  have hne : pattern ≠ [] := by
    rintro rfl
    contradiction
  have hchained := Ways.chain_chained value hfollows hne rfl
  rw [List.nil_append] at hchained
  rcases hchained.begins.cases with ⟨label, ⟨held, pattern', priority, ways⟩, heq, hhead⟩
    | ⟨name, next, heq, hcolon⟩ | ⟨name, value', pattern', heq, hstar⟩
  · obtain ⟨hlabel, hnode, -, -⟩ := Ways.sound_literal.mp (heq ▸ hchained.sound)
    have hentries : ((Node.mk held pattern' priority ways).entries.map
        (Entry.under (label.map .char))) = [Entry.ofRoute (pattern, value)] := by
      simpa [heq, Entry.ofRoute] using hchained.entries
    cases held with
    | none =>
        obtain ⟨hfields, hways⟩ := Node.sound_mk.mp hnode
        have hunnamed : (Node.mk none [] priority ways).Sound label :=
          Node.sound_mk.mpr ⟨⟨by simp, hfields.counted, hfields.live, hfields.mount⟩, hways⟩
        simp only [plant, heq]
        exact ⟨⟨hlabel, hhead.trans hslash, hunnamed⟩, hentries⟩
    | some held =>
        simp only [plant, heq]
        exact ⟨⟨hlabel, hhead.trans hslash, hnode⟩, hentries⟩
  · simp [hslash] at hcolon
  · simp [hslash] at hstar

theorem insert_sound {tree : Tree α} (pattern : Text) (value : α) (hsound : tree.Sound) :
    (tree.insert pattern value).1.Sound
      ∧ Registers (Entry.ofRoute (pattern, value)) tree.entries
          (tree.insert pattern value).1.entries (tree.insert pattern value).2 := by
  unfold insert
  cases hcheck : Pattern.check pattern with
  | error fault => exact ⟨hsound, rfl⟩
  | ok _ =>
      obtain ⟨hslash, hfollows⟩ := follows_of_check hcheck
      cases tree with
      | empty =>
          obtain ⟨hplant, hentries⟩ := plant_sound value hslash hfollows
          refine ⟨hplant, ?_⟩
          change (plant pattern value).entries.Perm [Entry.ofRoute (pattern, value)]
          rw [hentries]
      | root label node =>
          obtain ⟨hlabel, hhead, hnode⟩ := hsound
          have hnode : node.Sound ([] ++ label) := hnode
          have hgrown := Node.along_grown value hlabel hnode hfollows (hhead.trans hslash.symm)
            fun deeper hdeeper => Node.insert_grown value hnode hdeeper
          exact ⟨⟨hgrown.isLabel, hgrown.head.trans hhead, hgrown.sound⟩, hgrown.registers⟩

theorem Holds.insert_ok {tree tree' : Tree α} {routes : List (Text × α)} {pattern : Text}
    {value : α} (h : tree.Holds routes) (hinsert : tree.insert pattern value = (tree', .ok ())) :
    tree'.Holds (routes ++ [(pattern, value)]) := by
  obtain ⟨hsound, hregisters⟩ := insert_sound pattern value h.sound
  rw [hinsert] at hsound hregisters
  refine ⟨hsound, ?_⟩
  calc tree'.entries
      |>.Perm (Entry.ofRoute (pattern, value) :: tree.entries) := hregisters
    _ |>.Perm (Entry.ofRoute (pattern, value) :: routes.map Entry.ofRoute) :=
        h.entries.cons _
    _ |>.Perm ((routes ++ [(pattern, value)]).map Entry.ofRoute) := by
        rw [List.map_append]
        exact (List.perm_append_singleton _ _).symm

theorem Holds.insert_error {tree tree' : Tree α} {routes : List (Text × α)} {pattern : Text}
    {value : α} {fault : RouteError} (h : tree.Holds routes)
    (hinsert : tree.insert pattern value = (tree', .error fault)) : tree'.Holds routes := by
  obtain ⟨hsound, hregisters⟩ := insert_sound pattern value h.sound
  rw [hinsert] at hsound hregisters
  exact ⟨hsound, hregisters.symm ▸ h.entries⟩

theorem Holds.insertAll {tree : Tree α} {routes : List (Text × α)} (h : tree.Holds routes)
    (history : List (Text × α)) :
    (tree.insertAll history).Holds (routes ++ tree.accepted history) := by
  induction history generalizing tree routes with
  | nil => simpa [Tree.insertAll, accepted] using h
  | cons route later ih =>
      obtain ⟨pattern, value⟩ := route
      rw [Tree.insertAll, accepted]
      rcases hinsert : tree.insert pattern value with ⟨tree', _ | _⟩
      · exact ih (h.insert_error hinsert)
      · simpa using ih (h.insert_ok hinsert)

/-- A tree that comes about by registrations holds the accepted routes. -/
theorem holds_ofHistory (history : List (Text × α)) :
    (ofHistory history).Holds (routesOf history) := by
  have h := holds_empty.insertAll history
  rwa [List.nil_append] at h

end RadixRouter.Tree
