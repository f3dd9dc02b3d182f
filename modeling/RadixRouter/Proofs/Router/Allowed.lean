import RadixRouter.Proofs.Http.Location
import RadixRouter.Proofs.Router.Dispatch
import RadixRouter.Text.Blank

/-!
When a client is told that other methods are allowed, said without trees, and how it reads the list
of them.
-/

namespace RadixRouter

open Pattern

variable {α : Type}

/-- A tree is empty if and only if it holds no routes. -/
theorem Tree.Holds.eq_empty_iff {tree : Tree α} {routes : List (Text × α)}
    (h : tree.Holds routes) : tree = .empty ↔ routes = [] := by
  have hlength := h.entries.length_eq
  rw [List.length_map] at hlength
  cases tree with
  | empty => simpa using List.length_eq_zero_iff.mp hlength.symm
  | root label node =>
      have hpos := List.length_pos_iff.mpr h.sound.2.2.entries_ne_nil
      simp only [Tree.entries, List.length_map] at hlength
      rw [← List.length_eq_zero_iff]
      simp only [reduceCtorEq, false_iff]
      omega

/-- What is found under a key that occurs once is the entry of the key. -/
theorem MethodTree.find?_eq_some_iff {trees : List MethodTree}
    (hdistinct : (trees.map MethodTree.method).Nodup) {entry : MethodTree} {method : Method} :
    trees.find? (·.method = method) = some entry ↔ entry ∈ trees ∧ entry.method = method := by
  constructor
  · intro hfound
    exact ⟨List.mem_of_find?_eq_some hfound, by simpa using List.find?_some hfound⟩
  · rintro ⟨hmem, rfl⟩
    induction trees with
    | nil => simp at hmem
    | cons first trees ih =>
        rw [List.map_cons, List.nodup_cons] at hdistinct
        rcases List.mem_cons.mp hmem with rfl | hmem
        · simp
        · have hne : first.method ≠ entry.method := by
            intro heq
            exact hdistinct.1 (heq ▸ List.mem_map_of_mem hmem)
          simpa [hne] using ih hdistinct.2 hmem

theorem mem_intercalate {sep : Text} {texts : List Text} {c : Char}
    (hc : c ∈ List.intercalate sep texts) : c ∈ sep ∨ ∃ text ∈ texts, c ∈ text := by
  induction texts with
  | nil => simp at hc
  | cons text texts ih =>
      cases texts with
      | nil => exact Or.inr ⟨text, by simp, by simpa using hc⟩
      | cons next texts =>
          rw [List.intercalate_cons_cons, List.append_assoc] at hc
          rcases List.mem_append.mp hc with hc | hc
          · exact Or.inr ⟨text, by simp, hc⟩
          · rcases List.mem_append.mp hc with hc | hc
            · exact Or.inl hc
            · refine (ih hc).imp_right ?_
              rintro ⟨text', htext', hc⟩
              exact ⟨text', List.mem_cons_of_mem _ htext', hc⟩

theorem lt_of_isAlphanum {c : Char} (h : c.isAlphanum = true) : c.toNat < 0x80 := by
  have hlast : 'Z'.val.toNat < 0x80 ∧ 'z'.val.toNat < 0x80 ∧ '9'.val.toNat < 0x80 := by decide
  delta Char.isAlphanum Char.isAlpha Char.isUpper Char.isLower Char.isDigit at h
  simp only [Bool.or_eq_true, Bool.and_eq_true, decide_eq_true_eq, ge_iff_le,
    UInt32.le_iff_toNat_le] at h
  change c.val.toNat < 0x80
  omega

theorem isTokenChar_lt {c : Char} (h : isTokenChar c = true) : c.toNat < 0x80 := by
  have hsigns : ∀ d ∈ "!#$%&'*+-.^_\x60|~".toList, d.toNat < 0x80 := by simp
  rw [isTokenChar, Bool.or_eq_true, List.contains_iff_mem] at h
  exact h.elim lt_of_isAlphanum (hsigns c)

/-- What holds of the token characters of ASCII holds of all of them. -/
theorem forall_isTokenChar {P : Char → Prop}
    (h : ∀ n, n < 0x80 → isTokenChar (Char.ofNat n) = true → P (Char.ofNat n)) {c : Char}
    (hc : isTokenChar c = true) : P c := by
  have hn := h c.toNat (isTokenChar_lt hc)
  rw [Char.ofNat_toNat] at hn
  exact hn hc

theorem isTokenChar_bounds {c : Char} :
    isTokenChar c = true → 0x20 ≤ c.toNat ∧ c.toNat ≠ 0x7F :=
  forall_isTokenChar (P := fun c => 0x20 ≤ c.toNat ∧ c.toNat ≠ 0x7F) (by decide +kernel)

/-- A token neither ends a member of a list nor has blanks around it. -/
theorem isTokenChar_inner {c : Char} : isTokenChar c = true → c ≠ ',' ∧ isBlank c = false :=
  forall_isTokenChar (P := fun c => c ≠ ',' ∧ isBlank c = false) (by decide +kernel)

/-! ### Lists in a header -/

namespace Header

/-- The members of a list in a header: what stands between the commas, without the blanks in front
of it. -/
def members (value : Text) : List Text :=
  (Text.splitAt ',' value).map Text.trimStart

theorem members_blank (value : Text) : members (' ' :: value) = members value := by
  simp only [members, Text.splitAt]
  rw [if_neg (by decide)]
  cases hsplit : Text.splitAt ',' value with
  | nil => exact (Text.splitAt_ne_nil ',' value hsplit).elim
  | cons piece pieces => rfl

section Token

variable {name : Text} (htoken : name.all isTokenChar = true)
include htoken

theorem members_token : members name = [name] := by
  have hinner : ∀ c ∈ name, c ≠ ',' ∧ isBlank c = false :=
    fun c hc => isTokenChar_inner (List.all_eq_true.mp htoken c hc)
  have htrim : Text.trimStart name = name := by
    cases name with
    | nil => rfl
    | cons c name => simp [Text.trimStart, (hinner c List.mem_cons_self).2]
  rw [members, Text.splitAt_of_not_mem fun hmem => (hinner ',' hmem).1 rfl, List.map_singleton,
    htrim]

theorem members_token_append (value : Text) :
    members (name ++ ',' :: value) = name :: members value := by
  rw [members, Text.splitAt_append_cons, List.map_append, ← members, members_token htoken]
  rfl

end Token

/-- The members of a list of tokens are the tokens. -/
theorem members_intercalate {names : List Text} (hne : names ≠ [])
    (htokens : ∀ name ∈ names, name.all isTokenChar = true) :
    members (List.intercalate [',', ' '] names) = names := by
  induction names with
  | nil => contradiction
  | cons name names ih =>
      have htoken := htokens name List.mem_cons_self
      cases names with
      | nil => simpa using members_token htoken
      | cons next names =>
          have hrest := ih (by simp) fun other hother =>
            htokens other (List.mem_cons_of_mem _ hother)
          have hwhole : List.intercalate [',', ' '] (name :: next :: names)
              = name ++ ',' :: ' ' :: List.intercalate [',', ' '] (next :: names) := by simp
          rw [hwhole, members_token_append htoken, members_blank, hrest]

end Header

/-- A method as a request may have it: its name is a token. -/
def Method.Named (method : Method) : Prop :=
  method.name.all isTokenChar = true

instance (method : Method) : Decidable method.Named :=
  inferInstanceAs (Decidable (_ = true))

namespace Router

variable {router : Router} {registrations : List (Method × Endpoint)}

/-- Whether methods other than `method` are to be offered for `path`. -/
def Offered (registrations : List (Method × Endpoint)) (path : Text) (method : Method) : Prop :=
  ∃ other, other ≠ Method.options
    ∧ if path = ['*'] then routesFor registrations other ≠ []
      else other ≠ method ∧ Matched (routesFor registrations other) path

namespace Holds

variable (h : router.Holds registrations)
include h

theorem tree_holds {entry : MethodTree} (hentry : entry ∈ router.trees) :
    entry.tree.Holds (routesFor registrations entry.method) := by
  have htree := h.tree entry.method
  have hfound := (MethodTree.find?_eq_some_iff h.distinct).mpr ⟨hentry, rfl⟩
  rwa [treeOf, tree?, hfound] at htree

theorem exists_tree_iff (method : Method) :
    (∃ entry ∈ router.trees, entry.method = method) ↔ routesFor registrations method ≠ [] := by
  rw [ne_eq, ← (h.tree method).eq_empty_iff, treeOf, tree?]
  constructor
  · rintro ⟨entry, hentry, hmethod⟩
    rw [(MethodTree.find?_eq_some_iff h.distinct).mpr ⟨hentry, hmethod⟩]
    exact h.filled entry hentry
  · intro hsome
    cases hfound : router.trees.find? (·.method = method) with
    | none => simp [hfound] at hsome
    | some entry => exact ⟨entry, (MethodTree.find?_eq_some_iff h.distinct).mp hfound⟩

theorem mem_allowedMethods_iff (path : Text) (method other : Method) :
    other ∈ router.allowedMethods path method
      ↔ other ≠ Method.options
        ∧ if path = ['*'] then routesFor registrations other ≠ []
          else other ≠ method ∧ Matched (routesFor registrations other) path := by
  unfold allowedMethods
  by_cases hstar : path = ['*']
  · simp only [hstar, if_true, List.mem_map, List.mem_filter, decide_eq_true_eq,
      ← h.exists_tree_iff]
    constructor
    · rintro ⟨entry, ⟨hentry, hoptions⟩, rfl⟩
      exact ⟨hoptions, entry, hentry, rfl⟩
    · rintro ⟨hoptions, entry, hentry, rfl⟩
      exact ⟨entry, ⟨hentry, hoptions⟩, rfl⟩
  · simp only [hstar, if_false, List.mem_map, List.mem_filter, Bool.and_eq_true,
      decide_eq_true_eq]
    constructor
    · rintro ⟨entry, ⟨hentry, ⟨hmethod, hoptions⟩, hhit⟩, rfl⟩
      exact ⟨hoptions, hmethod, ((h.tree_holds hentry).isHit_iff path).mp hhit⟩
    · rintro ⟨hoptions, hmethod, route, hroute, hmatches⟩
      obtain ⟨entry, hentry, rfl⟩ := (h.exists_tree_iff other).mpr (List.ne_nil_of_mem hroute)
      refine ⟨entry, ⟨hentry, ⟨hmethod, hoptions⟩, ?_⟩, rfl⟩
      exact ((h.tree_holds hentry).isHit_iff path).mpr ⟨route, hroute, hmatches⟩

/-- Methods are offered if and only if some other method has a route for the path. -/
theorem allowed_isSome_iff (path : Text) (method : Method) :
    (router.allowed path method).isSome = true ↔ Offered registrations path method := by
  have hmem := h.mem_allowedMethods_iff path method
  simp only [Offered, ← hmem]
  unfold allowed
  cases router.allowedMethods path method with
  | nil => simp
  | cons first others =>
      simp only [Option.isSome_some, true_iff]
      exact ⟨first, List.mem_cons_self⟩

/-- The offered methods, and OPTIONS, are methods as a request may have them. -/
theorem named_of_offered (hmethods : ∀ registration ∈ registrations, registration.1.Named)
    {path : Text} {method other : Method}
    (hother : other ∈ router.allowedMethods path method ++ [Method.options]) : other.Named := by
  rcases List.mem_append.mp hother with hother | hother
  · obtain ⟨-, hoffered⟩ := (h.mem_allowedMethods_iff path method other).mp hother
    have hne : routesFor registrations other ≠ [] := by
      split at hoffered
      · exact hoffered
      · obtain ⟨-, route, hroute, -⟩ := hoffered
        exact List.ne_nil_of_mem hroute
    obtain ⟨route, hroute⟩ := List.exists_mem_of_ne_nil _ hne
    exact hmethods _ (mem_routesFor.mp hroute).1
  · rw [List.mem_singleton.mp hother, Method.Named]
    decide

/-- The offered methods can stand in a header. -/
theorem get?_allow (hmethods : ∀ registration ∈ registrations, registration.1.Named)
    {path allow : Text} {method : Method} (hallow : router.allowed path method = some allow)
    (headers : Headers) :
    (headers.insertText Header.allow allow).get? Header.allow = some (Text.utf8 allow) := by
  have hbounds : ∀ c ∈ allow, 0x20 ≤ c.toNat ∧ c.toNat ≠ 0x7F := by
    intro c hc
    unfold allowed at hallow
    split at hallow
    · contradiction
    · cases hallow
      rcases mem_intercalate hc with hc | ⟨name, hname, hc⟩
      · simp only [List.mem_cons, List.not_mem_nil, or_false] at hc
        rcases hc with rfl | rfl <;> decide
      · obtain ⟨other, hother, rfl⟩ := List.mem_map.mp hname
        apply isTokenChar_bounds
        have hall : other.Named := h.named_of_offered hmethods hother
        exact List.all_eq_true.mp hall c hc
  rw [Headers.insertText, Header.value?_eq_some hbounds]
  exact Headers.get?_insert_self _ _ _

end Holds

end Router

end RadixRouter
