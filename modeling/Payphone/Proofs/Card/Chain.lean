import Payphone.Proofs.Alignment
import Payphone.Proofs.Card.Payload

/-!
Card payloads along chains of revisions.

A payload is read by entry and place: byte `k` of entry `j`. This file shows that

1. one conversion succeeds on every payload of its revision and keeps exactly the bytes that have a place in both
   revisions (`result_convertPayload`, `getElem?_remap_layout`);
2. a chain of conversions succeeds, and keeps exactly the bytes that have a place in every revision on the way
   (`result_convertAlong`);
3. which bytes these are depends on whether MTR 1.x is among the revisions and on nothing else (`kept_iff`), so chains
   with the same ends differ in nothing else either (`convertAlong_congr`).
-/
namespace Payphone.Card

/-! One conversion. -/

theorem aligned_layout (source target : Revision) : (layout source).Aligned (layout target) where
  covered := (fits_layout target).covered
  shared := by cases source <;> cases target <;> decide
  blank := by cases target <;> decide

theorem entryLength_layout (revision : Revision) : (layout revision).entryLength = Entry.length revision := by
  cases revision <;> rfl

/-- A payload is refused for its length only. -/
theorem result_convertPayload (payload : Bytes) (source target : Revision) :
    (convertPayload payload source target).result =
      if payload.length = (layout source).tableLength then .ok (Layout.remap payload (layout source) (layout target))
      else .error (.sizeMismatch (tableId source) (layout source).tableLength payload.length) := by
  rw [convertPayload, Catalog.result_validate_bind (Table.expectedSize_eq source)]
  cases source <;> cases target <;> rfl

/-- No access to a payload fails. -/
theorem convert?_layout (payload : Bytes) (source target : Revision) :
    Layout.convert? payload (layout source) (layout target) =
      some (Layout.convert payload (layout source) (layout target)) := by
  have hpos := Table.entryLength_layout_pos target
  rw [Layout.convert?, Layout.remap?_eq, if_neg (by omega)]
  rfl

theorem getElem?_remap_layout {payload : Bytes} {source target : Revision} {j k : Nat}
    (h : payload.length = (layout source).tableLength) (hj : j < entryCount target) (hk : k < Entry.length target) :
    (Layout.remap payload (layout source) (layout target))[Entry.length target * j + k]? =
      if j < entryCount source ∧ k < Entry.length source then payload[Entry.length source * j + k]? else some 0 := by
  rw [← entryLength_layout] at hk ⊢
  rw [← entryLength_layout]
  exact Layout.getElem?_remap_of_aligned (aligned_layout source target) h hj hk

/-! Chains. -/

/-- Converts a payload of `source` to each of the revisions, one after the other. -/
def convertAlong (payload : Bytes) (source : Revision) : List Revision → Attempt Bytes
  | [] => return payload
  | target :: rest => do convertAlong (← convertPayload payload source target) target rest

/-- Every revision has a place for byte `k` of entry `j`. -/
def Kept (revisions : List Revision) (j k : Nat) : Prop :=
  ∀ revision ∈ revisions, j < entryCount revision ∧ k < Entry.length revision

instance (revisions : List Revision) (j k : Nat) : Decidable (Kept revisions j k) :=
  inferInstanceAs (Decidable (∀ revision ∈ revisions, _))

theorem kept_cons {revision : Revision} {rest : List Revision} {j k : Nat} :
    Kept (revision :: rest) j k ↔ (j < entryCount revision ∧ k < Entry.length revision) ∧ Kept rest j k :=
  List.forall_mem_cons

/-- MTR 1.x has the smaller places, so it decides wherever it occurs. -/
theorem kept_iff (revision : Revision) (rest : List Revision) (j k : Nat) :
    Kept (revision :: rest) j k ↔
      if .mtr1 ∈ revision :: rest then j < 20 ∧ k < 33 else j < 32 ∧ k < 36 := by
  by_cases passed : .mtr1 ∈ revision :: rest
  · rw [if_pos passed]
    refine ⟨fun h => h .mtr1 passed, fun ⟨hj, hk⟩ other _ => ?_⟩
    cases other with
    | mtr1 => exact ⟨hj, hk⟩
    | mtr2 => exact ⟨Nat.lt_of_lt_of_le hj (by decide), Nat.lt_of_lt_of_le hk (by decide)⟩
  · rw [if_neg passed]
    have extended : ∀ other ∈ revision :: rest, other = .mtr2 := by
      intro other hother
      cases other with
      | mtr1 => exact absurd hother passed
      | mtr2 => rfl
    constructor
    · intro h
      have hrevision := h revision List.mem_cons_self
      rw [extended revision List.mem_cons_self] at hrevision
      exact hrevision
    · intro h other hother
      rw [extended other hother]
      exact h

theorem result_convertAlong {payload : Bytes} {source : Revision} (chain : List Revision)
    (h : payload.length = (layout source).tableLength) :
    ∃ out, (convertAlong payload source chain).result = .ok out ∧
      out.length = (layout (chain.getLastD source)).tableLength ∧
      ∀ j < entryCount (chain.getLastD source), ∀ k < Entry.length (chain.getLastD source),
        out[Entry.length (chain.getLastD source) * j + k]? =
          if Kept (source :: chain) j k then payload[Entry.length source * j + k]? else some 0 := by
  induction chain generalizing payload source with
  | nil =>
    refine ⟨payload, rfl, h, ?_⟩
    intro j hj k hk
    have kept : Kept [source] j k := kept_cons.2 ⟨⟨hj, hk⟩, by simp [Kept]⟩
    rw [if_pos kept]
    rfl
  | cons target rest ih =>
    have step := result_convertPayload payload source target
    rw [if_pos h] at step
    obtain ⟨out, hout, hlen, hbytes⟩ :=
      ih (Layout.length_remap payload (layout source) (layout target))
    rw [List.getLastD_cons]
    refine ⟨out, ?_, hlen, ?_⟩
    · rw [convertAlong, Attempt.result_bind, step]
      exact hout
    · intro j hj k hk
      have both : Kept (source :: target :: rest) j k ↔
          (j < entryCount source ∧ k < Entry.length source) ∧ Kept (target :: rest) j k := kept_cons
      rw [hbytes j hj k hk]
      -- what the rest of the chain keeps has a place in its first revision
      by_cases kept : Kept (target :: rest) j k
      · obtain ⟨⟨hj', hk'⟩, -⟩ := kept_cons.1 kept
        simp only [both, kept, if_true, and_true, getElem?_remap_layout h hj' hk']
      · simp only [both, kept, if_false, and_false]

/-- Chains from one revision to another give the same, if MTR 1.x is on both or on neither. -/
theorem convertAlong_congr {payload : Bytes} {source : Revision} {chain other : List Revision}
    (h : payload.length = (layout source).tableLength) (last : other.getLastD source = chain.getLastD source)
    (passed : .mtr1 ∈ source :: other ↔ .mtr1 ∈ source :: chain) :
    (convertAlong payload source other).result = (convertAlong payload source chain).result := by
  obtain ⟨out, hout, hlen, hbytes⟩ := result_convertAlong chain h
  obtain ⟨out', hout', hlen', hbytes'⟩ := result_convertAlong other h
  rw [last] at hlen' hbytes'
  have same : out' = out := by
    apply Layout.eq_of_places hlen' hlen
    intro j hj k hk
    rw [entryLength_layout] at hk ⊢
    rw [hbytes' j hj k hk, hbytes j hj k hk]
    simp only [kept_iff, passed]
  rw [hout', hout, same]

/-- A chain back to its first revision changes nothing, if MTR 1.x is that revision or is not on the way. -/
theorem convertAlong_unchanged {payload : Bytes} {source : Revision} {chain : List Revision}
    (h : payload.length = (layout source).tableLength) (last : source = chain.getLastD source)
    (passed : .mtr1 ∈ source :: chain → source = .mtr1) :
    (convertAlong payload source chain).result = .ok payload := by
  -- the same as the chain that converts nothing
  have same : (convertAlong payload source []).result = (convertAlong payload source chain).result := by
    refine convertAlong_congr h last ?_
    constructor
    · intro first
      exact List.mem_cons.2 (.inl (List.mem_singleton.1 first))
    · intro among
      exact List.mem_singleton.2 (passed among).symm
  rw [← same]
  rfl

/-- From MTR 1.x there is a way back. -/
theorem result_convertPayload_back {payload : Bytes} (h : payload.length = (layout .mtr1).tableLength) :
    ∃ wide, (convertPayload payload .mtr1 .mtr2).result = .ok wide ∧ wide.length = (layout .mtr2).tableLength ∧
      (convertPayload wide .mtr2 .mtr1).result = .ok payload := by
  have first := result_convertPayload payload .mtr1 .mtr2
  rw [if_pos h] at first
  refine ⟨_, first, Layout.length_remap payload (layout .mtr1) (layout .mtr2), ?_⟩
  have unchanged : (convertAlong payload .mtr1 [.mtr2, .mtr1]).result = .ok payload :=
    convertAlong_unchanged h rfl fun _ => rfl
  rw [convertAlong, Attempt.result_bind, first, Except.bind, convertAlong, Attempt.result_bind] at unchanged
  obtain ⟨narrow, back, last⟩ := bind_eq_ok.1 unchanged
  rw [back]
  exact last

/-- A chain through MTR 1.x comes to the same as going there at once, and on to its last revision. -/
theorem convertAlong_of_passed {payload : Bytes} {source : Revision} {chain : List Revision}
    (h : payload.length = (layout source).tableLength) (passed : .mtr1 ∈ source :: chain) :
    ∃ narrow, (convertPayload payload source .mtr1).result = .ok narrow ∧
      (convertPayload narrow .mtr1 (chain.getLastD source)).result = (convertAlong payload source chain).result := by
  have first := result_convertPayload payload source .mtr1
  rw [if_pos h] at first
  have twice : (convertAlong payload source [.mtr1, chain.getLastD source]).result =
      (convertAlong payload source chain).result := convertAlong_congr h rfl (by simp [passed])
  refine ⟨_, first, ?_⟩
  rw [← twice, convertAlong, Attempt.result_bind, first, Except.bind, convertAlong, Attempt.result_bind]
  cases (convertPayload _ .mtr1 (chain.getLastD source)).result <;> rfl

/-- **A chain of conversions forgets what MTR 1.x has no place for, once, and nothing else.** It succeeds on every
payload of its first revision, and all that it depends on is the revision it ends with and whether MTR 1.x occurs.
Within MTR 2.x the payload stays as it is. Otherwise the result is that of going to MTR 1.x and on to the last
revision: the first 33 bytes of the first 20 entries stay, and all others are zero. No access fails on the way. -/
theorem chains_forget_once (payload : Bytes) (source : Revision) (chain : List Revision)
    (h : payload.length = (layout source).tableLength) :
    ∃ out, (convertAlong payload source chain).result = .ok out ∧
      out.length = (layout (chain.getLastD source)).tableLength ∧
      (∀ other, other.getLastD source = chain.getLastD source →
        (.mtr1 ∈ source :: other ↔ .mtr1 ∈ source :: chain) →
        (convertAlong payload source other).result = .ok out) ∧
      ((∀ revision ∈ source :: chain, revision = .mtr2) → out = payload) ∧
      (.mtr1 ∈ source :: chain →
        (∃ narrow, (convertPayload payload source .mtr1).result = .ok narrow ∧
          (convertPayload narrow .mtr1 (chain.getLastD source)).result = .ok out) ∧
        (∀ j < 20, ∀ k < 33,
          out[Entry.length (chain.getLastD source) * j + k]? = payload[Entry.length source * j + k]?) ∧
        (chain.getLastD source = .mtr2 →
          ∀ j < 32, ∀ k < 36, 20 ≤ j ∨ 33 ≤ k → out[36 * j + k]? = some 0)) ∧
      (source = .mtr1 → chain.getLastD source = .mtr1 → out = payload) ∧
      ∀ table before after, Layout.convert? table (layout before) (layout after) =
        some (Layout.convert table (layout before) (layout after)) := by
  obtain ⟨out, hout, hlen, hbytes⟩ := result_convertAlong chain h
  refine ⟨out, hout, hlen, ?_, ?_, ?_, ?_, convert?_layout⟩
  · intro other last passed
    rw [convertAlong_congr h last passed, hout]
  · intro extended
    have hsource : source = .mtr2 := extended source List.mem_cons_self
    have hlast : chain.getLastD source = .mtr2 := extended _ List.getLastD_mem_cons
    have unchanged := convertAlong_unchanged h (hsource.trans hlast.symm) fun passed => by cases extended .mtr1 passed
    exact Except.ok.inj (hout.symm.trans unchanged)
  · intro passed
    refine ⟨?_, ?_, ?_⟩
    · rw [← hout]
      exact convertAlong_of_passed h passed
    · intro j hj k hk
      have room : j < entryCount (chain.getLastD source) ∧ k < Entry.length (chain.getLastD source) := by
        cases chain.getLastD source with
        | mtr1 => exact ⟨hj, hk⟩
        | mtr2 => exact ⟨Nat.lt_of_lt_of_le hj (by decide), Nat.lt_of_lt_of_le hk (by decide)⟩
      rw [hbytes j room.1 k room.2]
      simp only [kept_iff, passed, hj, hk, if_true, and_self]
    · intro hlast j hj k hk outside
      rw [hlast] at hbytes
      have forgotten : ¬ (j < 20 ∧ k < 33) := by omega
      have zero := hbytes j hj k hk
      simp only [kept_iff, passed, forgotten, if_true, if_false] at zero
      exact zero
  · intro first last
    have unchanged := convertAlong_unchanged h (first.trans last.symm) fun _ => first
    exact Except.ok.inj (hout.symm.trans unchanged)

/-- Out of MTR 2.x into MTR 1.x, where the chain stays for a while, and back. -/
theorem chains_forget_once_there_and_back :
    let payload : Bytes := List.replicate 1152 0x5a
    payload.length = (layout .mtr2).tableLength ∧
    ∃ out, (convertAlong payload .mtr2 [.mtr1, .mtr1, .mtr2]).result = .ok out ∧
      out[36 * 19 + 32]? = some 0x5a ∧ out[36 * 19 + 33]? = some 0 ∧ out[36 * 20]? = some 0 := by
  intro payload
  have size : payload.length = (layout .mtr2).tableLength := List.length_replicate
  obtain ⟨out, hout, -, -, -, forgets, -⟩ := chains_forget_once payload .mtr2 [.mtr1, .mtr1, .mtr2] size
  obtain ⟨-, kept, zero⟩ := forgets (by decide)
  refine ⟨size, out, hout, ?_, ?_, ?_⟩
  · exact (kept 19 (by decide) 32 (by decide)).trans (List.getElem?_replicate_of_lt (by decide))
  · exact zero rfl 19 (by decide) 33 (by decide) (by decide)
  · exact zero rfl 20 (by decide) 0 (by decide) (by decide)

end Payphone.Card
