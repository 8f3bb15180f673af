import Payphone.Card.Report
import Payphone.Proofs.Rows
import Payphone.Proofs.Text.Lines

/-!
The report on a card table, read back.

1. The service code is what the view of it shows (`toBytes_serviceCode`), and no two views are described alike
   (`describe_injective`), so it does not matter that an entry with a standard code beyond the sixteen standards has a
   view of its own.
2. The lines of an entry tell its slot and what the report shows of it (`alike_of_entryLines`).
3. The report is made of these lines and of a heading (`lines_report`), and all entries have equally many, so equal
   reports are equal entry by entry.
-/
namespace Payphone.Card

/-! Standards. -/

namespace Standard

theorem length_label (s : Standard) : s.label.length = 6 := by
  cases s <;> rfl

theorem find?_label (s : Standard) : all.find? (fun other => other.label == s.label) = some s := by
  cases s <;> decide

theorem label_injective : Function.Injective label := by
  intro a b same
  have ha := find?_label a
  rw [same, find?_label b] at ha
  exact (Option.some.inj ha).symm

theorem code_of_low : ∀ n < 16, (all.getD n undefined).code = n := by decide

theorem code_ofCode (code : UInt8) : (ofCode code).code = code.toNat % 16 :=
  code_of_low _ (Nat.mod_lt _ (by decide))

theorem single_label (s : Standard) : Text.Single s.label := by
  cases s <;> decide

theorem label_append_inj {a b : Standard} {r s : String} : a.label ++ r = b.label ++ s ↔ a = b ∧ r = s :=
  Text.append_inj_of_width length_label label_injective

end Standard

/-! Service codes. -/

namespace ServiceCode

/-- The bytes that a view shows. -/
def toBytes : ServiceCode → Bytes
  | credit s => CreditService.form.encode s
  | smart s => SmartService.form.encode s
  | raw bytes => bytes.toList

/-- No view hides a byte. -/
theorem toBytes_ofBytes (standard : Standard) (bytes : Vector UInt8 serviceLength) :
    (ofBytes standard bytes).toBytes = bytes.toList := by
  have size : bytes.toList.length = serviceLength := bytes.length_toList
  have credited : (credit (CreditService.form.decode bytes.toList)).toBytes = bytes.toList :=
    CreditService.form.encode_decode bytes.toList size
  have smartened : (smart (SmartService.form.decode bytes.toList)).toBytes = bytes.toList :=
    SmartService.form.encode_decode bytes.toList size
  cases standard <;> first | exact credited | exact smartened | rfl

theorem describe_credit (s : CreditService) :
    (credit s).describe = "Service Codes: " ++ ",".intercalate (s.codes.toList.map Text.hexWord) ++ " Spill: " ++
      Hex.encode s.spill.toList ++ " TC:" ++ Text.hexByte s.terminator ++ " DI:" ++ Text.hexByte s.discountIndex :=
  rfl

theorem describe_smart (s : SmartService) :
    (smart s).describe = "Ck Digits: " ++ Hex.encode s.checkDigits.toList ++ " Ck Value: " ++
      Hex.encode s.checkValue.toList ++ " Manufacturer: " ++ Hex.encode s.manufacturer.toList ++ " Discount Index: " ++
        Text.hexByte s.discountIndex :=
  rfl

theorem describe_raw (bytes : Vector UInt8 serviceLength) :
    (raw bytes).describe = "Service Codes: " ++ Hex.encode bytes.toList := rfl

theorem describe_credit_inj {a b : CreditService} (same : (credit a).describe = (credit b).describe) : a = b := by
  rw [describe_credit, describe_credit] at same
  simp only [String.append_assoc, String.append_right_inj] at same
  rw [Text.intercalate_append_inj_of_width Text.length_hexWord Text.hexWord_injective "," (by simp)] at same
  simp only [String.append_right_inj, Text.encode_append_inj, Text.hexByte_append_inj, Text.hexByte_injective.eq_iff,
    Vector.toList_inj] at same
  cases a
  cases b
  simpa only [CreditService.mk.injEq] using same

theorem describe_smart_inj {a b : SmartService} (same : (smart a).describe = (smart b).describe) : a = b := by
  rw [describe_smart, describe_smart] at same
  simp only [String.append_assoc, String.append_right_inj, Text.encode_append_inj, Text.hexByte_injective.eq_iff]
    at same
  cases a
  cases b
  simpa only [SmartService.mk.injEq] using same

theorem describe_raw_inj {a b : Vector UInt8 serviceLength} (same : (raw a).describe = (raw b).describe) : a = b := by
  rw [describe_raw, describe_raw, String.append_right_inj, ← String.append_left_inj "", Text.encode_append_inj] at same
  exact same.1

/-- The description of a smart card begins with another letter than the others. -/
theorem describe_smart_ne (s : SmartService) (text : String) : (smart s).describe ≠ "Service Codes: " ++ text := by
  intro same
  have letters := congrArg (fun text => text.toList.head?) same
  have c : "Ck Digits: ".toList = 'C' :: "k Digits: ".toList := rfl
  have s : "Service Codes: ".toList = 'S' :: "ervice Codes: ".toList := rfl
  simp [describe_smart, String.append_assoc, c, s] at letters

/-- The description of a credit card has blanks where the one of raw bytes has hexadecimal digits only. -/
theorem describe_credit_ne_raw (s : CreditService) (bytes : Vector UInt8 serviceLength) :
    (credit s).describe ≠ (raw bytes).describe := by
  intro same
  rw [describe_credit, describe_raw] at same
  simp only [String.append_assoc, String.append_right_inj] at same
  have blank : ' ' ∈ (Hex.encode bytes.toList).toList := by
    have inside : ' ' ∈ " Spill: ".toList := by decide
    rw [← same, String.toList_append, String.toList_append]
    exact List.mem_append_right _ (List.mem_append_left _ inside)
  exact Text.not_mem_encode (by decide) _ blank

/-- **A description tells the view**, also which of the three views it is of. -/
theorem describe_injective : Function.Injective describe := by
  intro a b same
  cases a with
  | credit s =>
    cases b with
    | credit s' => rw [describe_credit_inj same]
    | smart s' =>
      rw [describe_credit] at same
      simp only [String.append_assoc] at same
      exact absurd same.symm (describe_smart_ne s' _)
    | raw bytes => exact absurd same (describe_credit_ne_raw s bytes)
  | smart s =>
    cases b with
    | credit s' =>
      rw [describe_credit] at same
      simp only [String.append_assoc] at same
      exact absurd same (describe_smart_ne s _)
    | smart s' => rw [describe_smart_inj same]
    | raw bytes => exact absurd same (describe_smart_ne s _)
  | raw bytes =>
    cases b with
    | credit s' => exact absurd same.symm (describe_credit_ne_raw s' bytes)
    | smart s' => exact absurd same.symm (describe_smart_ne s' _)
    | raw bytes' => rw [describe_raw_inj same]

end ServiceCode

/-! Entries. -/

namespace Entry

theorem toBytes_serviceCode (e : Entry) : e.serviceCode.toBytes = e.service.toList := by
  rw [serviceCode]
  by_cases beyond : e.standardCode > 0x0f
  · rw [if_pos beyond]
    rfl
  · rw [if_neg beyond]
    exact ServiceCode.toBytes_ofBytes e.standard e.service

/-- The two agree in everything that a report under the revision shows of them. -/
structure Alike (revision : Revision) (e f : Entry) : Prop where
  panStart : e.panStart = f.panStart
  panEnd : e.panEnd = f.panEnd
  standardCode : e.standardCode.toNat % 16 = f.standardCode.toNat % 16
  verify : e.verify = f.verify
  expiryDate : e.expiryDate = f.expiryDate
  initialDate : e.initialDate = f.initialDate
  discretionary : e.discretionary = f.discretionary
  service : e.service = f.service
  refNum : e.refNum = f.refNum
  carrierRef : e.carrierRef = f.carrierRef
  controlInfo : revision = .mtr2 → e.controlInfo = f.controlInfo
  bankInfo : revision = .mtr2 → e.bankInfo = f.bankInfo
  langCode : revision = .mtr2 → e.langCode = f.langCode

theorem Alike.symm {revision : Revision} {e f : Entry} (h : e.Alike revision f) : f.Alike revision e :=
  ⟨h.panStart.symm, h.panEnd.symm, h.standardCode.symm, h.verify.symm, h.expiryDate.symm, h.initialDate.symm,
    h.discretionary.symm, h.service.symm, h.refNum.symm, h.carrierRef.symm,
    fun extended => (h.controlInfo extended).symm, fun extended => (h.bankInfo extended).symm,
    fun extended => (h.langCode extended).symm⟩

end Entry

namespace Table

theorem entryLine_eq (index : Nat) (e : Entry) :
    entryLine index e = "|  " ++ (Text.rightAligned 2 index ++ (" " ++ (" | " ++ (Hex.encode e.panStart.toList ++
      (" - " ++ (Hex.encode e.panEnd.toList ++ (" | " ++ (e.standard.label ++ (" | " ++ ("x" ++
        (Text.hexByte e.verify ++ (" | " ++ ("  0x" ++ (Text.hexByte e.carrierRef ++ (" " ++ (" | " ++ ("x" ++
          (Text.hexByte e.refNum ++ (" | " ++ ("P " ++ ("x" ++ (Text.hexByte e.expiryDate ++ (" " ++ ("x" ++
            (Text.hexByte e.initialDate ++ (" " ++ ("x" ++ (Text.hexByte e.discretionary ++ (" | " ++
              BitLabels.joined e.verifyLabels))))))))))))))))))))))))))))) := by
  have dates : s!"P {marked e.expiryDate} {marked e.initialDate} {marked e.discretionary}" =
      "P " ++ marked e.expiryDate ++ " " ++ marked e.initialDate ++ " " ++ marked e.discretionary := rfl
  rw [entryLine, dates]
  simp only [String.intercalate_cons_cons, String.intercalate_singleton, Entry.panRange, marked, String.append_assoc]

theorem extensionLine_eq (e : Entry) :
    extensionLine e = "|      | Control: " ++ ("x" ++ (Text.hexByte e.controlInfo ++ (" Bank: " ++ ("x" ++
      (Text.hexByte e.bankInfo ++ (" Lang: " ++ ("x" ++ Text.hexByte e.langCode))))))) := by
  have line : extensionLine e = "|      | Control: " ++ marked e.controlInfo ++ " Bank: " ++ marked e.bankInfo ++
      " Lang: " ++ marked e.langCode := rfl
  rw [line]
  simp only [marked, String.append_assoc]

variable {i j : Nat} {e f : Entry}

/-- The line of an entry is read from left to right. -/
theorem entryLine_inj (same : entryLine i e = entryLine j f) :
    i = j ∧ e.panStart = f.panStart ∧ e.panEnd = f.panEnd ∧ e.standard = f.standard ∧ e.verify = f.verify ∧
      e.carrierRef = f.carrierRef ∧ e.refNum = f.refNum ∧ e.expiryDate = f.expiryDate ∧
      e.initialDate = f.initialDate ∧ e.discretionary = f.discretionary := by
  rw [entryLine_eq, entryLine_eq, String.append_right_inj, Text.rightAligned_append_inj] at same
  simp only [String.append_right_inj, Text.encode_append_inj, Standard.label_append_inj, Text.hexByte_append_inj]
    at same
  obtain ⟨slot, panStart, panEnd, standard, verify, carrierRef, refNum, expiryDate, initialDate, discretionary, -⟩ :=
    same
  exact ⟨slot, panStart, panEnd, standard, verify, carrierRef, refNum, expiryDate, initialDate, discretionary⟩

theorem service_of_description (same : e.serviceCode.describe = f.serviceCode.describe) : e.service = f.service := by
  apply Vector.toList_inj.1
  rw [← e.toBytes_serviceCode, ← f.toBytes_serviceCode, ServiceCode.describe_injective same]

theorem extensionLine_inj (same : extensionLine e = extensionLine f) :
    e.controlInfo = f.controlInfo ∧ e.bankInfo = f.bankInfo ∧ e.langCode = f.langCode := by
  rw [extensionLine_eq, extensionLine_eq] at same
  simpa only [String.append_right_inj, Text.hexByte_append_inj, Text.hexByte_injective.eq_iff] using same

theorem length_entryLines (revision : Revision) (i : Nat) (e : Entry) :
    (entryLines revision i e).length = if revision = .mtr2 then 4 else 3 := by
  cases revision <;> rfl

/-- **The lines of an entry tell its slot and all that they are to show of it.** -/
theorem alike_of_entryLines {revision : Revision} (same : entryLines revision i e = entryLines revision j f) :
    i = j ∧ e.Alike revision f := by
  have first : entryLine i e = entryLine j f := by
    cases revision <;> exact (List.cons.inj same).1
  have second : "|      | " ++ e.serviceCode.describe = "|      | " ++ f.serviceCode.describe := by
    cases revision <;> exact (List.cons.inj (List.cons.inj same).2).1
  have third : revision = .mtr2 → extensionLine e = extensionLine f := by
    rintro rfl
    exact (List.cons.inj (List.cons.inj (List.cons.inj same).2).2).1
  obtain ⟨slot, panStart, panEnd, standard, verify, carrierRef, refNum, expiryDate, initialDate, discretionary⟩ :=
    entryLine_inj first
  have standardCode : e.standardCode.toNat % 16 = f.standardCode.toNat % 16 := by
    rw [← Standard.code_ofCode, ← Standard.code_ofCode]
    exact congrArg Standard.code standard
  have service := service_of_description ((String.append_right_inj _).1 second)
  have extension := fun extended => extensionLine_inj (third extended)
  exact ⟨slot, panStart, panEnd, standardCode, verify, expiryDate, initialDate, discretionary, service, refNum,
    carrierRef, fun extended => (extension extended).1, fun extended => (extension extended).2.1,
    fun extended => (extension extended).2.2⟩

/-! The report. -/

variable {t u : Table}

theorem mem_active_iff : (i, e) ∈ t.active ↔ t.entries[i]? = some e ∧ e.standardCode ≠ 0 := by
  simp only [active, List.mem_map, List.mem_filter, List.mem_zipIdx_iff_getElem?, Prod.mk.injEq, Prod.exists]
  constructor
  · rintro ⟨e', i', ⟨there, used⟩, rfl, rfl⟩
    exact ⟨there, by simpa [Entry.isUnused] using used⟩
  · rintro ⟨there, used⟩
    exact ⟨e, i, ⟨there, by simpa [Entry.isUnused] using used⟩, rfl, rfl⟩

theorem active_ascending (t : Table) : (t.active.map Prod.fst).Pairwise (· < ·) := by
  have slots : t.active.map Prod.fst = (t.entries.zipIdx.filter fun p => !p.1.isUnused).map Prod.snd := by
    rw [active, List.map_map]
    rfl
  have ascending : (t.entries.zipIdx.map Prod.snd).Pairwise (· < ·) := by
    rw [List.zipIdx_map_snd]
    exact List.pairwise_lt_range'
  rw [slots]
  exact ascending.sublist (List.filter_sublist.map Prod.snd)

theorem single_verifyLabels (e : Entry) : ∀ label ∈ e.verifyLabels, Text.Single label := by
  intro label h
  obtain ⟨flag, -, rfl⟩ := List.mem_map.1 h
  cases flag <;> decide

theorem single_entryLine (i : Nat) (e : Entry) : Text.Single (entryLine i e) := by
  have signs : Text.Single "|  " ∧ Text.Single " " ∧ Text.Single " | " ∧ Text.Single " - " ∧ Text.Single "x" ∧
      Text.Single "  0x" ∧ Text.Single "P " := by decide
  have labels : Text.Single (BitLabels.joined e.verifyLabels) :=
    Text.single_intercalate (by decide) (single_verifyLabels e)
  simp only [entryLine_eq, Text.single_append, Text.single_rightAligned, Text.single_encode, Text.single_hexByte,
    Standard.single_label, signs, labels, and_self]

theorem single_describe (code : ServiceCode) : Text.Single code.describe := by
  cases code with
  | credit s =>
    have signs : Text.Single "Service Codes: " ∧ Text.Single " Spill: " ∧ Text.Single " TC:" ∧ Text.Single " DI:" := by
      decide
    have codes : Text.Single (",".intercalate (s.codes.toList.map Text.hexWord)) := by
      apply Text.single_intercalate (by decide)
      intro text h
      obtain ⟨w, -, rfl⟩ := List.mem_map.1 h
      exact Text.single_hexWord w
    simp only [ServiceCode.describe_credit, Text.single_append, Text.single_encode, Text.single_hexByte, signs, codes,
      and_self]
  | smart s =>
    have signs : Text.Single "Ck Digits: " ∧ Text.Single " Ck Value: " ∧ Text.Single " Manufacturer: " ∧
        Text.Single " Discount Index: " := by decide
    simp only [ServiceCode.describe_smart, Text.single_append, Text.single_encode, Text.single_hexByte, signs,
      and_self]
  | raw bytes =>
    have sign : Text.Single "Service Codes: " := by decide
    simp only [ServiceCode.describe_raw, Text.single_append, Text.single_encode, sign, and_self]

theorem single_extensionLine (e : Entry) : Text.Single (extensionLine e) := by
  have signs : Text.Single "|      | Control: " ∧ Text.Single " Bank: " ∧ Text.Single " Lang: " ∧ Text.Single "x" := by
    decide
  simp only [extensionLine_eq, Text.single_append, Text.single_hexByte, signs, and_self]

theorem single_heading : ∀ line ∈ [rule, heading, rule], Text.Single line := by
  have edge : Text.Single rule := by decide
  have titles : Text.Single heading := by decide
  simp [edge, titles]

theorem single_entryLines (revision : Revision) (i : Nat) (e : Entry) :
    ∀ line ∈ entryLines revision i e, Text.Single line := by
  have start : Text.Single "|      | " := by decide
  have last : Text.Single rule := single_heading rule List.mem_cons_self
  intro line h
  rw [entryLines, List.mem_append, List.mem_append, List.mem_cons, List.mem_singleton, List.mem_singleton] at h
  rcases h with ((rfl | rfl) | extended) | rfl
  · exact single_entryLine i e
  · exact (Text.single_append _ _).2 ⟨start, single_describe e.serviceCode⟩
  · by_cases mtr2 : revision = .mtr2
    · rw [if_pos mtr2, List.mem_singleton] at extended
      rw [extended]
      exact single_extensionLine e
    · rw [if_neg mtr2] at extended
      exact absurd extended List.not_mem_nil
  · exact last

theorem lines_report (t : Table) : Text.Lines t.report t.reportLines where
  joined := rfl
  single := by
    intro line h
    rcases List.mem_append.1 h with head | entries
    · exact single_heading line head
    · obtain ⟨p, -, hp⟩ := List.mem_flatMap.1 entries
      exact single_entryLines t.revision p.1 p.2 line hp

/-- Equal reports hold the same blocks of lines. -/
theorem active_of_reports (own : u.revision = t.revision) (same : u.report = t.report) :
    u.active.map (fun p => entryLines t.revision p.1 p.2) = t.active.map fun p => entryLines t.revision p.1 p.2 := by
  have others : Text.Lines t.report u.reportLines := same ▸ u.lines_report
  have lines := others.unique t.lines_report
  rw [reportLines, reportLines, own, List.append_right_inj] at lines
  have blocks : ∀ p : Nat × Entry, (entryLines t.revision p.1 p.2).length = if t.revision = .mtr2 then 4 else 3 :=
    fun p => length_entryLines t.revision p.1 p.2
  have some : 0 < if t.revision = .mtr2 then 4 else 3 := by split <;> decide
  exact map_eq_of_flatMap_rows blocks some lines

theorem exists_alike (own : u.revision = t.revision) (same : u.report = t.report) (h : (i, e) ∈ t.active) :
    ∃ f : Entry, (i, f) ∈ u.active ∧ e.Alike t.revision f := by
  have block := List.mem_map_of_mem (f := fun p => entryLines t.revision p.1 p.2) h
  rw [← active_of_reports own same] at block
  obtain ⟨⟨j, f⟩, there, lines⟩ := List.mem_map.1 block
  obtain ⟨rfl, alike⟩ := alike_of_entryLines lines
  exact ⟨f, there, alike.symm⟩

/-- **Equal reports are of entries that are alike.** The report of a table is three lines of heading, then the lines of
the entries in use in ascending order, three for each of them or four under MTR 2.x. Tables of one revision with equal
reports have the same slots in use, and their entries agree in everything that is to be shown of them, with every
byte of the service code. -/
theorem report_tells_active_entries (t : Table) :
    Text.Lines t.report ([rule, heading, rule] ++ t.active.flatMap fun p => entryLines t.revision p.1 p.2) ∧
    (∀ i e, (entryLines t.revision i e).length = if t.revision = .mtr2 then 4 else 3) ∧
    (t.active.map Prod.fst).Pairwise (· < ·) ∧
    (∀ i e, (i, e) ∈ t.active ↔ t.entries[i]? = some e ∧ e.standardCode ≠ 0) ∧
    ∀ u : Table, u.revision = t.revision → u.report = t.report → ∀ i : Nat,
      (∀ e : Entry, t.entries[i]? = some e → e.standardCode ≠ 0 →
        ∃ f : Entry, u.entries[i]? = some f ∧ f.standardCode ≠ 0 ∧ e.Alike t.revision f) ∧
      ∀ f : Entry, u.entries[i]? = some f → f.standardCode ≠ 0 →
        ∃ e : Entry, t.entries[i]? = some e ∧ e.standardCode ≠ 0 ∧ e.Alike t.revision f := by
  refine ⟨t.lines_report, length_entryLines t.revision, t.active_ascending, fun i e => mem_active_iff, ?_⟩
  intro u own same i
  constructor
  · intro e there used
    obtain ⟨f, hf, alike⟩ := exists_alike own same (mem_active_iff.2 ⟨there, used⟩)
    obtain ⟨there', used'⟩ := mem_active_iff.1 hf
    exact ⟨f, there', used', alike⟩
  · intro f there used
    obtain ⟨e, he, alike⟩ := exists_alike own.symm same.symm (mem_active_iff.2 ⟨there, used⟩)
    obtain ⟨there', used'⟩ := mem_active_iff.1 he
    rw [own] at alike
    exact ⟨e, there', used', alike.symm⟩

/-- Two tables under MTR 1.x with equal reports: an unused entry more, another high half of the standard code and an
extension that is not to be shown make no difference. -/
theorem report_tells_active_entries_unshown :
    let e : Entry := { panStart := #v[0x37, 0x02, 0x00], standardCode := 0x12, verify := 0x85 }
    let f : Entry := { e with standardCode := 0x22, langCode := 7 }
    let t : Table := ⟨.mtr1, [{}, e]⟩
    let u : Table := ⟨.mtr1, [{}, f, {}]⟩
    t ≠ u ∧ u.revision = t.revision ∧ u.report = t.report ∧ e.Alike t.revision f := by
  intro e f t u
  have standard : f.standard = e.standard := by decide
  have code : f.serviceCode = e.serviceCode := by decide
  have lines : entryLines .mtr1 1 f = entryLines .mtr1 1 e := by
    rw [entryLines, entryLines, entryLine, entryLine, standard, code]
    rfl
  have same : u.report = t.report := by
    have shown : t.active = [(1, e)] ∧ u.active = [(1, f)] := ⟨rfl, rfl⟩
    have own : t.revision = .mtr1 := rfl
    rw [report, report, reportLines, reportLines, shown.1, shown.2, own, List.flatMap_singleton,
      List.flatMap_singleton, lines]
  obtain ⟨-, -, -, -, tells⟩ := report_tells_active_entries t
  obtain ⟨f', there, -, alike⟩ := (tells u rfl same 1).1 e rfl (by decide)
  obtain rfl : f = f' := Option.some.inj there
  exact ⟨by decide, rfl, same, alike⟩

end Table

end Payphone.Card
