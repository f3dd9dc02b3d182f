import RadixRouter.Config.Server
import RadixRouter.Proofs.Run
import RadixRouter.Server.Intake

/-!
How long a body may be. A body that is not longer than the limit comes through whole and a longer
one is refused, whether its length is declared or not and whether it comes in chunks or not. The
largest limit is an exception: one byte more than that is no machine word, and the sum panics.
-/

namespace RadixRouter

namespace Chunk

/-! ### Reading chunks -/

variable {raw rest more : Bytes} {budget n : Nat}

@[simp] theorem read?_zero (raw : Bytes) : read? 0 raw = some [] := by
  rw [read?, if_pos rfl]

theorem read?_of_last (hpos : budget ≠ 0) (hlength : length? raw = some (0, rest)) :
    read? budget raw = (afterLineEnd? rest).map fun _ => [] := by
  rw [read?, if_neg hpos]
  split
  · next hnone => simp [hlength] at hnone
  · next hsome =>
      cases hlength.symm.trans hsome
      rfl
  · next hsome => simp [hlength] at hsome

/-- A chunk that the budget or the bytes do not reach to the end of. -/
theorem read?_of_cut (hpos : budget ≠ 0) (hlength : length? raw = some (n + 1, rest))
    (hcut : budget < n + 1 ∨ rest.length < n + 1) :
    read? budget raw = some (rest.take (min budget (n + 1))) := by
  rw [read?, if_neg hpos]
  split
  · next hnone => simp [hlength] at hnone
  · next hsome => simp [hlength] at hsome
  · next hsome =>
      cases hlength.symm.trans hsome
      rw [if_pos (by simpa using hcut)]

theorem read?_of_whole (hlength : length? raw = some (n + 1, rest)) (hbudget : n + 1 ≤ budget)
    (hwhole : n + 1 ≤ rest.length) (hline : afterLineEnd? (rest.drop (n + 1)) = some more) :
    read? budget raw = (read? (budget - (n + 1)) more).map (rest.take (n + 1) ++ ·) := by
  rw [read?, if_neg (by omega)]
  split
  · next hnone => simp [hlength] at hnone
  · next hsome => simp [hlength] at hsome
  · next hsome =>
      cases hlength.symm.trans hsome
      rw [if_neg (by simp; omega)]
      split
      · next hnone => simp [hline] at hnone
      · next hsome' =>
          cases hline.symm.trans hsome'
          rfl

/-- What is read with a budget that is not used up is all there is, and a read with any other budget
gives the front of it. -/
theorem read?_eq_take {body : Bytes} (hread : read? budget raw = some body)
    (hspare : body.length < budget) (other : Nat) : read? other raw = some (body.take other) := by
  fun_induction read? budget raw generalizing other body with
  | case1 => contradiction
  | case2 => contradiction
  | case3 budget raw hpos rest hlength =>
      obtain ⟨_, hline, rfl⟩ := Option.map_eq_some_iff.mp hread
      by_cases hother : other = 0
      · simp [hother]
      · simp [read?_of_last hother hlength, hline]
  | case4 budget raw hpos n rest hlength hcut =>
      obtain rfl := Option.some.inj hread
      have hcut : budget < n + 1 ∨ rest.length < n + 1 := by simpa using hcut
      rw [List.length_take] at hspare
      -- The budget is not used up, so it is the bytes that give out.
      have hshort : rest.length < n + 1 := by omega
      by_cases hother : other = 0
      · simp [hother]
      · rw [read?_of_cut hother hlength (Or.inr hshort), List.take_take, Option.some_inj,
          List.take_eq_take_iff]
        omega
  | case5 => contradiction
  | case6 budget raw hpos n rest hlength hwhole more hline ih =>
      obtain ⟨later, hlater, rfl⟩ := Option.map_eq_some_iff.mp hread
      have hwhole : n + 1 ≤ budget ∧ n + 1 ≤ rest.length := by simpa using hwhole
      have hfront : (rest.take (n + 1)).length = n + 1 := List.length_take_of_le hwhole.2
      rw [List.length_append, hfront] at hspare
      by_cases hother : other = 0
      · simp [hother]
      · by_cases hless : other < n + 1
        · rw [read?_of_cut hother hlength (Or.inl hless),
            List.take_append_of_le_length (by omega), List.take_take]
        · have hnext := ih hlater (by omega) (other - (n + 1))
          rw [read?_of_whole hlength (by omega) hwhole.2 hline, hnext, List.take_append, hfront,
            List.take_of_length_le (by omega : (rest.take (n + 1)).length ≤ other)]
          rfl

end Chunk

/-- Whether `body` is what a source gives when it is read to its end. -/
inductive BodySource.Gives : BodySource → Bytes → Prop where
  | plain (body : Bytes) : Gives (.plain body) body
  | chunked {raw body : Bytes} {budget : Nat} (hread : Chunk.read? budget raw = some body)
      (hspare : body.length < budget) : Gives (.chunked raw) body

theorem BodySource.Gives.read?_eq {source : BodySource} {body : Bytes} (h : source.Gives body)
    (budget : UInt64) : source.read? budget = some (body.take budget.toNat) := by
  cases h with
  | plain => rfl
  | chunked hread hspare => exact Chunk.read?_eq_take hread hspare budget.toNat

namespace Incoming

/-- Whether `request` is what comes in, however long its body is: method, target and headers are
valid, the source gives the body, and its length is not declared or is declared as it is. -/
structure Means (incoming : Incoming) (request : Request) : Prop where
  parts : Request.ofParts? incoming.method incoming.uri incoming.headers request.body
    incoming.remote = some request
  gives : incoming.body.Gives request.body
  declared : ∀ n ∈ incoming.declared, n = request.body.length

/-- What a limit asks for: the whole request, or a refusal if the body is longer than that. -/
def limited (limit : UInt64) (request : Request) : Except IntakeFault Request :=
  if request.body.length ≤ limit.toNat then .ok request else .error (.bodyTooLarge limit)

/-- Whether the bound of the read is no machine word any more, and no declared length is refused
before it is worked out. -/
structure Overflows (limit : UInt64) (incoming : Incoming) : Prop where
  top : UInt64.size ≤ limit.toNat + 1
  unrefused : ∀ n ∈ incoming.declared, n ≤ limit.toNat

variable {incoming : Incoming} {request : Request}

theorem Means.any_declared_iff (h : incoming.Means request) (limit : Nat) :
    incoming.declared.any (limit < ·) = true
      ↔ incoming.declared ≠ none ∧ limit < request.body.length := by
  cases hdeclared : incoming.declared with
  | none => simp
  | some n =>
      obtain rfl := h.declared n hdeclared
      simp

/-- A budget of one byte more than the limit is enough to tell whether the body is too long. -/
theorem Means.readWithin_eq (h : incoming.Means request) {limit budget : UInt64}
    (hbudget : budget.toNat = limit.toNat + 1) :
    incoming.readWithin limit budget = limited limit request := by
  rw [readWithin, h.gives.read?_eq, hbudget, limited]
  by_cases hshort : request.body.length ≤ limit.toNat
  · have hwhole : request.body.take (limit.toNat + 1) = request.body :=
      List.take_of_length_le (Nat.le_succ_of_le hshort)
    rw [hwhole, if_pos hshort]
    simp only [if_neg (Nat.not_lt_of_le hshort), h.parts]
  · have hlong : limit.toNat < (request.body.take (limit.toNat + 1)).length := by
      rw [List.length_take]
      omega
    simp only [if_pos hlong, if_neg hshort]

/-- A declared length that is too large is refused for what it is. -/
theorem Means.read_of_declared (h : incoming.Means request) {limit : UInt64}
    (hdeclared : incoming.declared.any (limit.toNat < ·) = true) :
    incoming.read limit = pure (limited limit request) := by
  have hlong := ((h.any_declared_iff limit.toNat).mp hdeclared).2
  rw [read, if_pos hdeclared, limited, if_neg (Nat.not_le_of_lt hlong)]

/-- Below the largest limit the body is kept or refused as a whole. -/
theorem Means.read_of_fits (h : incoming.Means request) {limit : UInt64}
    (hfits : limit.toNat + 1 < UInt64.size) :
    incoming.read limit = pure (limited limit request) := by
  by_cases hdeclared : incoming.declared.any (limit.toNat < ·) = true
  · exact h.read_of_declared hdeclared
  · have hbudget : (limit + 1).toNat = limit.toNat + 1 := by
      rw [UInt64.toNat_add, UInt64.toNat_one]
      exact Nat.mod_eq_of_lt hfits
    rw [read, if_neg hdeclared, Run.addWord_of_lt hfits, pure_bind, h.readWithin_eq hbudget]

/-- With the largest limit nothing is answered. -/
theorem Overflows.read_eq {limit : UInt64} (h : Overflows limit incoming) :
    incoming.read limit = Run.panic Run.overflow := by
  have hdeclared : ¬ incoming.declared.any (limit.toNat < ·) = true := by
    simpa [Option.any_eq_true] using h.unrefused
  rw [read, if_neg hdeclared, Run.addWord_of_le h.top]
  rfl

/-- A body is kept or refused as the limit asks for, if and only if the bound of the read does not
overflow; if it does, the read panics, whether there is a body or not. -/
theorem read_eq_limited_iff (h : incoming.Means request) (limit : UInt64) :
    (incoming.read limit = pure (limited limit request) ↔ ¬ Overflows limit incoming)
      ∧ (Overflows limit incoming → incoming.read limit = Run.panic Run.overflow) := by
  refine ⟨⟨?_, ?_⟩, Overflows.read_eq⟩
  · intro hlimited hoverflows
    exact Run.panic_ne_pure _ _ (hoverflows.read_eq.symm.trans hlimited)
  · intro hnot
    by_cases hfits : limit.toNat + 1 < UInt64.size
    · exact h.read_of_fits hfits
    · have hdeclared : incoming.declared.any (limit.toNat < ·) = true := by
        apply Classical.byContradiction
        intro hunrefused
        refine hnot ⟨Nat.le_of_not_lt hfits, ?_⟩
        simpa [Option.any_eq_true] using hunrefused
      exact h.read_of_declared hdeclared

/-- A request with three bytes in its body, whose length is declared. -/
def parcel : Incoming where
  method := "POST".toList
  uri := "/".toList
  headers := [("Content-Length".toList, "3".toList)]
  declared := some 3
  body := .plain [0x61, 0x62, 0x63]
  remote := none

/-- The same request for a router. -/
def unpacked : Request where
  method := Method.post
  target := ⟨['/'], none⟩
  headers := [⟨"content-length".toList, [0x33]⟩]
  body := [0x61, 0x62, 0x63]
  remote := none

/-- The largest limit can be set, and nothing comes through under it. -/
theorem parcel_overflows :
    (ServerConfig.ofEnvironment [("TRIEROUTER_MAX_BODY_BYTES".toList,
        "18446744073709551615".toList)]).toOption.map ServerConfig.maxBodyBytes
        = some 18446744073709551615
      ∧ parcel.Means unpacked ∧ Overflows 18446744073709551615 parcel
      ∧ parcel.read 18446744073709551615 ≠ pure (.ok unpacked)
      ∧ parcel.read 18446744073709551615 = Run.panic Run.overflow := by
  have hmeans : parcel.Means unpacked := by
    refine ⟨rfl, BodySource.Gives.plain _, ?_⟩
    rintro n ⟨⟩
    rfl
  have hoverflows : Overflows 18446744073709551615 parcel := by
    refine ⟨by decide, ?_⟩
    rintro n ⟨⟩
    decide
  have hlimited : limited 18446744073709551615 unpacked = .ok unpacked := rfl
  obtain ⟨hiff, hread⟩ := read_eq_limited_iff hmeans 18446744073709551615
  rw [hlimited] at hiff
  exact ⟨by decide +kernel, hmeans, hoverflows, fun hkept => hiff.mp hkept hoverflows,
    hread hoverflows⟩

end Incoming

end RadixRouter
