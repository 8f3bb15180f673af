import Payphone.Proofs.Text.Injective

/-!
Texts made of lines.

A text is made of at most one list of lines (`Lines.unique`), so reports that are equal are equal line by line. What
reports are put together from holds no line feed (`single_append` and what follows it).
-/
namespace Payphone.Text

/-! Text within a line. -/

/-- There is no line feed in the text. -/
def Single (text : String) : Prop := '\n' ∉ text.toList

instance (text : String) : Decidable (Single text) := inferInstanceAs (Decidable (_ ∉ _))

@[simp] theorem single_append (a b : String) : Single (a ++ b) ↔ Single a ∧ Single b := by
  simp [Single]

theorem single_join {texts : List String} (h : ∀ text ∈ texts, Single text) : Single (String.join texts) := by
  induction texts with
  | nil => decide
  | cons text texts ih =>
    rw [String.join_cons, single_append]
    exact ⟨h text List.mem_cons_self, ih fun t ht => h t (List.mem_cons_of_mem text ht)⟩

theorem single_intercalate {mark : String} (hmark : Single mark) {texts : List String}
    (h : ∀ text ∈ texts, Single text) : Single (mark.intercalate texts) := by
  cases texts with
  | nil =>
    rw [String.intercalate_nil]
    decide
  | cons text texts =>
    rw [intercalate_cons_eq_join, single_append]
    refine ⟨h text List.mem_cons_self, single_join ?_⟩
    intro marked hm
    obtain ⟨other, hother, rfl⟩ := List.mem_map.1 hm
    exact (single_append mark other).2 ⟨hmark, h other (List.mem_cons_of_mem text hother)⟩

@[simp] theorem single_decimal (n : Nat) : Single (decimal n) := not_mem_decimal (by decide) n

theorem single_padLeft (width : Nat) {fill : Char} (hfill : fill ≠ '\n') {text : String} (h : Single text) :
    Single (padLeft width fill text) := by
  rw [Single, toList_padLeft, List.mem_append, List.mem_replicate, not_or]
  exact ⟨fun feed => hfill feed.2.symm, h⟩

@[simp] theorem single_rightAligned (width n : Nat) : Single (rightAligned width n) :=
  single_padLeft width (by decide) (single_decimal n)

@[simp] theorem single_zeroPadded (width n : Nat) : Single (zeroPadded width n) :=
  single_padLeft width (by decide) (single_decimal n)

theorem feed_ne_hexDigit : ∀ d < 16, '\n' ≠ hexDigit d := by decide

@[simp] theorem single_hexByte (x : UInt8) : Single (hexByte x) := not_mem_hex feed_ne_hexDigit 2 x.toNat

@[simp] theorem single_hexWord (w : UInt16) : Single (hexWord w) := not_mem_hex feed_ne_hexDigit 4 w.toNat

@[simp] theorem single_encode (b : Bytes) : Single (Hex.encode b) := not_mem_encode feed_ne_hexDigit b

/-! Lines. -/

/-- The text is made of these lines, each of them ended by a line feed. -/
structure Lines (text : String) (lines : List String) : Prop where
  joined : text = String.join (lines.map (· ++ "\n"))
  single : ∀ line ∈ lines, Single line

/-- The characters of a text of lines, line by line. -/
def ended (lines : List String) : List Char := lines.flatMap fun line => line.toList ++ ['\n']

theorem Lines.toList_eq {text : String} {lines : List String} (h : Lines text lines) : text.toList = ended lines := by
  rw [h.joined, String.toList_join, List.flatMap_map]
  simp only [String.toList_append]
  rfl

/-- Every line ends at the first line feed from its start. -/
theorem ended_inj {lines others : List String} (h : ∀ line ∈ lines, Single line) (k : ∀ line ∈ others, Single line)
    (same : ended lines = ended others) : lines = others := by
  induction lines generalizing others with
  | nil =>
    cases others with
    | nil => rfl
    | cons other others => simp [ended] at same
  | cons line lines ih =>
    cases others with
    | nil => simp [ended] at same
    | cons other others =>
      simp only [ended, List.flatMap_cons, List.append_assoc, List.singleton_append] at same
      obtain ⟨first, rest⟩ :=
        (append_mark_inj (h line List.mem_cons_self) (k other List.mem_cons_self)).1 same
      rw [String.toList_inj.1 first, ih (fun l hl => h l (List.mem_cons_of_mem line hl))
        (fun l hl => k l (List.mem_cons_of_mem other hl)) rest]

theorem Lines.unique {text : String} {lines others : List String} (h : Lines text lines) (k : Lines text others) :
    lines = others :=
  ended_inj h.single k.single (h.toList_eq.symm.trans k.toList_eq)

/-! Lines that are begun by a line feed. -/

def opened (lines : List String) : String := String.join (lines.map ("\n" ++ ·))

theorem opened_append (lines others : List String) : opened (lines ++ others) = opened lines ++ opened others := by
  rw [opened, List.map_append, String.join_append]
  rfl

theorem opened_map {α : Type} (f : α → String) (xs : List α) :
    opened (xs.map f) = String.join (xs.map fun x => "\n" ++ f x) := by
  rw [opened, List.map_map]
  rfl

theorem join_flatMap {α : Type} (f : α → List String) (xs : List α) :
    String.join (xs.flatMap f) = String.join (xs.map fun x => String.join (f x)) := by
  induction xs with
  | nil => rfl
  | cons x xs ih => rw [List.flatMap_cons, String.join_append, ih, List.map_cons, String.join_cons]

theorem opened_flatMap {α : Type} (f : α → List String) (xs : List α) :
    opened (xs.flatMap f) = String.join (xs.map fun x => opened (f x)) := by
  rw [opened, List.map_flatMap, join_flatMap]
  rfl

/-- Line feeds between lines are line feeds in front of them, but for the first one. -/
theorem opened_cons (line : String) (lines : List String) :
    opened (line :: lines) = "\n" ++ "\n".intercalate (line :: lines) := by
  rw [opened, List.map_cons, String.join_cons, intercalate_cons_eq_join, String.append_assoc]

/-- The line feeds in front of lines move behind them. -/
theorem opened_append_feed (lines : List String) :
    opened lines ++ "\n" = "\n" ++ String.join (lines.map (· ++ "\n")) := by
  induction lines with
  | nil => rfl
  | cons line lines ih =>
    rw [opened, List.map_cons, String.join_cons, ← opened, String.append_assoc, ih, List.map_cons, String.join_cons]
    simp only [String.append_assoc]

theorem Lines.of_opened {text : String} {lines : List String} (h : "\n" ++ text = opened lines ++ "\n")
    (single : ∀ line ∈ lines, Single line) : Lines text lines where
  joined := by rwa [opened_append_feed, String.append_right_inj] at h
  single := single

/-- Something in front of the first of a row of texts is in front of all of them. -/
theorem join_led (n : Nat) (first : String) (text : Nat → String) :
    String.join ((List.range (n + 1)).map fun j => (if j = 0 then first else "") ++ text j) =
      first ++ String.join ((List.range (n + 1)).map text) := by
  have later : (List.range n).map ((fun j => (if j = 0 then first else "") ++ text j) ∘ Nat.succ) =
      (List.range n).map (text ∘ Nat.succ) :=
    List.map_congr_left fun j _ => by
      rw [Function.comp_apply, if_neg (Nat.succ_ne_zero j), String.empty_append]
      rfl
  rw [List.range_succ_eq_map, List.map_cons, List.map_cons, List.map_map, List.map_map, later, String.join_cons,
    String.join_cons, if_pos rfl, String.append_assoc]

end Payphone.Text
