import RadixRouter.Proofs.Pattern.Fill
import RadixRouter.Proofs.Tree.Resolution

/-!
No route is shadowed by the others: a path that is made of its pattern, with values that begin with
a character that no pattern uses, resolves to it and to these values.
-/

namespace RadixRouter

open Pattern

variable {α : Type}

namespace Pattern

/-- The first binding of a wildcard begins where the path begins. -/
theorem exists_binding_head {wild : Token} (hwild : wild.isWild = true) {back : List Token}
    {c : Char} {rest : Text} {params : Params}
    (hbind : bind? (wild :: back) (c :: rest) = some params) :
    ∃ binding ∈ params, binding.value.head? = some c := by
  cases wild with
  | char d => contradiction
  | param name =>
      rw [bind?_param] at hbind
      split at hbind
      · contradiction
      · next hsegment =>
          obtain ⟨later, -, rfl⟩ := Option.map_eq_some_iff.mp hbind
          refine ⟨_, List.mem_cons_self, ?_⟩
          have hc : c ≠ '/' := by
            rintro rfl
            exact hsegment rfl
          simp [Text.upTo, hc]
  | catchAll name =>
      rw [bind?] at hbind
      split at hbind
      · cases hbind
        exact ⟨_, List.mem_cons_self, rfl⟩
      · contradiction

/-- Where other tokens have a character first, and these a wildcard, both read the same place of the
path. So the character is the one that the wildcard's value begins with. -/
theorem char_mem_of_moreSpecific {c : Char} {other tokens : List Token} {path : Text}
    {params : Params} (hbind : bind? tokens path = some params)
    (hbegin : ∀ binding ∈ params, binding.value.head? = some c)
    (hmatches : MatchesTokens other path) (hmore : MoreSpecificTokens other tokens) :
    .char c ∈ other := by
  obtain ⟨d, front, wild, back, hwild, hpart⟩ := hmore
  fun_induction part other tokens generalizing path params with
  | case1 other token tokens ih =>
      apply List.mem_cons_of_mem
      cases token with
      | char e =>
          obtain ⟨rest, rfl, hrest⟩ := matchesTokens_char.mp hmatches
          rw [bind?, if_pos rfl] at hbind
          exact ih hbind hbegin hrest hpart
      | param name =>
          obtain ⟨hsegment, hrest⟩ := matchesTokens_param.mp hmatches
          rw [bind?_param, if_neg hsegment] at hbind
          obtain ⟨later, hlater, rfl⟩ := Option.map_eq_some_iff.mp hbind
          exact ih hlater (fun binding hmem => hbegin binding (List.mem_cons_of_mem _ hmem)) hrest
            hpart
      | catchAll name =>
          -- Nothing stands behind a catch-all, so the two cannot part there.
          by_cases hlast : tokens = []
          · subst hlast
            cases other <;> simp [part] at hpart
          · simp [bind?, hlast] at hbind
  | case2 a other b tokens hne =>
      cases hpart
      obtain ⟨rest, rfl, -⟩ := matchesTokens_char.mp hmatches
      obtain ⟨binding, hmem, hhead⟩ := exists_binding_head hwild hbind
      obtain rfl : c = d := Option.some.inj ((hbegin binding hmem).symm.trans hhead)
      exact List.mem_cons_self
  | case3 other tokens hnot =>
      cases hpart
      exact (hnot _ _ _ _ rfl rfl).elim

/-- A character that stands for itself stands in the pattern. -/
theorem mem_of_char_mem_tokens {pattern : Text} {c : Char} (h : .char c ∈ tokens pattern) :
    c ∈ pattern := by
  rw [← flatMap_write_tokens pattern]
  exact List.mem_flatMap.mpr ⟨_, h, List.mem_singleton_self c⟩

/-- The bindings that put `c` in the place of each parameter, and `c` with `tail` behind it in the
place of a catch-all. -/
def probe (c : Char) (tail : Text) : List Token → Params
  | [] => []
  | .char _ :: tokens => probe c tail tokens
  | .param name :: tokens => ⟨name, [c]⟩ :: probe c tail tokens
  | .catchAll name :: tokens => ⟨name, c :: tail⟩ :: probe c tail tokens

theorem probe_binds {c : Char} (hslash : c ≠ '/') (tail : Text) (tokens : List Token) :
    List.Forall₂ Token.Binds (tokens.filter Token.isWild) (probe c tail tokens) := by
  induction tokens with
  | nil => exact List.Forall₂.nil
  | cons token tokens ih =>
      cases token with
      | char d => exact ih
      | param name =>
          have hvalue : '/' ∉ [c] := by simpa using Ne.symm hslash
          exact List.Forall₂.cons ⟨rfl, List.cons_ne_nil c [], hvalue⟩ ih
      | catchAll name => exact List.Forall₂.cons rfl ih

theorem head?_of_mem_probe {c : Char} {tail : Text} {tokens : List Token} :
    ∀ binding ∈ probe c tail tokens, binding.value.head? = some c := by
  induction tokens with
  | nil => simp [probe]
  | cons token tokens ih => cases token <;> simpa [probe] using ih

end Pattern

namespace Tree

theorem check_of_mem_accepted {tree : Tree α} {history : List (Text × α)} {route : Text × α}
    (hroute : route ∈ tree.accepted history) : Pattern.check route.1 = .ok () := by
  induction history generalizing tree with
  | nil => simp [accepted] at hroute
  | cons first later ih =>
      obtain ⟨pattern, value⟩ := first
      rw [accepted] at hroute
      rcases hinsert : tree.insert pattern value with ⟨next, fault | _⟩
      · rw [hinsert] at hroute
        exact ih hroute
      · rw [hinsert] at hroute
        rcases List.mem_cons.mp hroute with rfl | hroute
        · cases hcheck : Pattern.check pattern with
          | ok _ => rfl
          | error fault => simp [insert, hcheck] at hinsert
        · exact ih hroute

variable {tree : Tree α} {routes : List (Text × α)}

/-- A path that some route matches, with bindings that begin with a character that no pattern uses,
resolves to that route: the only one that could be more specific would have the character where the
route has a wildcard. -/
theorem Holds.lookup_eq_hit_of_unused (h : tree.Holds routes) {route : Text × α}
    (hroute : route ∈ routes) {c : Char} (hunused : ∀ other ∈ routes, c ∉ other.1) {path : Text}
    {params : Params} (hbind : bind? (tokens route.1) path = some params)
    (hbegin : ∀ binding ∈ params, binding.value.head? = some c) :
    tree.lookup path = .hit route.2 params := by
  have hmatches : Matches route.1 path := by simp [Matches, hbind]
  cases hlookup : tree.lookup path with
  | miss slash => exact (h.not_matches_of_miss hlookup route hroute hmatches).elim
  | hit value found =>
      obtain ⟨pattern, hmost⟩ := h.exists_mostSpecific hlookup
      have hsame : route = (pattern, value) := by
        by_contra hne
        have hmem := char_mem_of_moreSpecific hbind hbegin hmost.matches_path
          (hmost.best route hroute hne hmatches)
        exact hunused _ hmost.mem (mem_of_char_mem_tokens hmem)
      subst hsame
      rw [Option.some.inj (hmost.binds.symm.trans hbind)]

/-- Every accepted route is found, whatever else was registered: with a character that no pattern
uses in the place of each parameter, and with any text that begins with it in the place of a
catch-all, its pattern resolves to its value and to these bindings. -/
theorem ofHistory_lookup_probe (history : List (Text × α)) {route : Text × α}
    (hroute : route ∈ routesOf history) {c : Char} (hslash : c ≠ '/')
    (hunused : ∀ other ∈ routesOf history, c ∉ other.1) (tail : Text) :
    (ofHistory history).lookup
        (fill (tokens route.1) ((probe c tail (tokens route.1)).map Param.value))
      = .hit route.2 (probe c tail (tokens route.1)) := by
  have hfollows := (follows_of_check (check_of_mem_accepted hroute)).2
  exact (holds_ofHistory history).lookup_eq_hit_of_unused hroute hunused
    (hfollows.bind?_fill (probe_binds hslash tail _)) head?_of_mem_probe

/-- A route with three wildcards, and routes that part from it at each of its elements. The last one
is refused. -/
def shelves : List (Text × Nat) :=
  [("/a/:book".toList, 1), ("/:shelf/:book/*page".toList, 2), ("/:shelf/all".toList, 3),
    ("/:shelf/:book/cover".toList, 4)]

theorem shelves_lookup_probe :
    ("/:shelf/:book/*page".toList, 2) ∈ routesOf shelves
      ∧ 'z' ≠ '/'
      ∧ (∀ other ∈ routesOf shelves, 'z' ∉ other.1)
      ∧ (ofHistory shelves).lookup "/z/z/z/9".toList
        = .hit 2 [⟨"shelf".toList, "z".toList⟩, ⟨"book".toList, "z".toList⟩,
          ⟨"page".toList, "z/9".toList⟩] := by
  have hroute : ("/:shelf/:book/*page".toList, 2) ∈ routesOf shelves := by decide +kernel
  have hslash : 'z' ≠ '/' := by decide
  have hunused : ∀ other ∈ routesOf shelves, 'z' ∉ other.1 := by decide +kernel
  have hprobe : probe 'z' "/9".toList (tokens "/:shelf/:book/*page".toList)
      = [⟨"shelf".toList, "z".toList⟩, ⟨"book".toList, "z".toList⟩,
        ⟨"page".toList, "z/9".toList⟩] := by decide +kernel
  have hpath : fill (tokens "/:shelf/:book/*page".toList)
      ["z".toList, "z".toList, "z/9".toList] = "/z/z/z/9".toList := by decide +kernel
  have hlookup := ofHistory_lookup_probe shelves hroute hslash hunused "/9".toList
  rw [hprobe] at hlookup
  exact ⟨hroute, hslash, hunused, hpath ▸ hlookup⟩

end Tree

end RadixRouter
