import Payphone.Proofs.Card.Payload
import Payphone.Proofs.Carrier.Payload
import Payphone.Proofs.Lcd.Payload
import Payphone.TableType

/-!
What decoding under an identifier comes to, for every type of table.

1. A decoder of one table refuses payloads for their length only, so under an identifier the table is either the
   one asked for, byte for byte, or an error that says why not (`outcome_decodeOwn`).
2. The tables of local call determination check the identifier first and the header last (`outcome_decodeLcd`).
3. So all four types accept exactly the payloads of the catalog's length under their own identifiers, and no access
   to a payload fails (`decodeAs_decides`).
-/
namespace Payphone

/-- The outcome of decoding a payload under an identifier, where `accepted` says what should be accepted. -/
inductive Outcome {T : Type} [TableType T] (id : UInt8) (payload : Bytes) (accepted : Prop) :
    Except TableError T → Prop
  /-- The table is stored under the identifier, and its payload is the one that was read. -/
  | table (t : T) (h : accepted) (same : TableType.encode t = payload) (own : TableType.tableId t = id) :
    Outcome id payload accepted (.ok t)
  | unknown (h : ¬ accepted) (unlisted : ¬ Catalog.Lists id) :
    Outcome id payload accepted (.error (.unknownTable id))
  | size (table : UInt8) (expected actual : Nat) (h : ¬ accepted) (listed : Catalog.Lists id) :
    Outcome id payload accepted (.error (.sizeMismatch table expected actual))
  | field (name reason : String) (h : ¬ accepted) (listed : Catalog.Lists id) :
    Outcome id payload accepted (.error (.invalidField name reason))

namespace Outcome

variable {T : Type} [TableType T] {id : UInt8} {payload : Bytes} {accepted : Prop} {answer : Except TableError T}

theorem ok_iff (o : Outcome id payload accepted answer) : (∃ t, answer = .ok t) ↔ accepted := by
  constructor
  · rintro ⟨t, rfl⟩
    cases o with
    | table t h same own => exact h
  · intro accept
    cases o with
    | table t h same own => exact ⟨t, rfl⟩
    | unknown h unlisted => exact absurd accept h
    | size table expected actual h listed => exact absurd accept h
    | field name reason h listed => exact absurd accept h

theorem of_ok (o : Outcome id payload accepted answer) {t : T} (ht : answer = .ok t) :
    TableType.encode t = payload ∧ TableType.tableId t = id := by
  subst ht
  cases o with
  | table t h same own => exact ⟨same, own⟩

theorem of_error (o : Outcome id payload accepted answer) {e : TableError} (he : answer = .error e) :
    (¬ Catalog.Lists id → e = .unknownTable id) ∧
    (Catalog.Lists id → (∃ table expected actual, e = .sizeMismatch table expected actual) ∨
      ∃ field reason, e = .invalidField field reason) := by
  subst he
  cases o with
  | unknown h unlisted => exact ⟨fun _ => rfl, fun listed => absurd listed unlisted⟩
  | size table expected actual h listed =>
    exact ⟨fun unlisted => absurd listed unlisted, fun _ => .inl ⟨table, expected, actual, rfl⟩⟩
  | field name reason h listed =>
    exact ⟨fun unlisted => absurd listed unlisted, fun _ => .inr ⟨name, reason, rfl⟩⟩

end Outcome

/-! Tables of one identifier. -/

/-- The decoder refuses payloads for their length only, which is the one of `own` in the catalog, and the tables it
gives are written as they were read. -/
structure Exact (T : Type) [TableType T] (own : UInt8) (revision : Revision) where
  size : Nat
  table : Bytes → T
  listed : Catalog.expectedSize own revision = .ok size
  result (payload : Bytes) : (TableType.decode (T := T) payload revision).result =
    if payload.length = size then .ok (table payload) else .error (.sizeMismatch own size payload.length)
  encode (payload : Bytes) (h : payload.length = size) : TableType.encode (table payload) = payload
  tableId (payload : Bytes) : TableType.tableId (table payload) = own

theorem result_decodeOwn {T : Type} [TableType T] {own : UInt8} {revision : Revision} (x : Exact T own revision)
    {id : UInt8} (listed : Catalog.Lists id) (payload : Bytes) :
    (decodeOwn (T := T) TableType.decode TableType.tableId id payload revision).result =
      if payload.length ≠ x.size then .error (.sizeMismatch own x.size payload.length)
      else if own ≠ id then .error (.invalidField "table id"
        s!"0x{Text.hexByte id} does not hold a 0x{Text.hexByte own} record")
      else .ok (x.table payload) := by
  obtain ⟨info, hinfo⟩ := Catalog.lookup_of_lists listed
  -- the identifier is compared after the payload was read, so a wrong length comes first
  rw [decodeOwn, Attempt.result_bind, Attempt.result_lift, hinfo]
  change (TableType.decode payload revision >>= _).result = _
  rw [Attempt.result_bind, x.result]
  by_cases hsize : payload.length = x.size
  · rw [if_pos hsize, if_neg (not_not_intro hsize)]
    simp only [Except.bind, x.tableId payload]
    by_cases hid : own = id
    · rw [if_neg (not_not_intro hid), if_neg (not_not_intro hid)]
      rfl
    · rw [if_pos hid, if_pos hid]
      rfl
  · rw [if_neg hsize, if_pos hsize]
    rfl

theorem outcome_decodeOwn {T : Type} [TableType T] {own : UInt8} {revision : Revision} (x : Exact T own revision)
    (id : UInt8) (payload : Bytes) :
    Outcome (T := T) id payload (id = own ∧ Catalog.expectedSize id revision = .ok payload.length ∧ True)
      (decodeOwn TableType.decode TableType.tableId id payload revision).result := by
  by_cases listed : Catalog.Lists id
  · rw [result_decodeOwn x listed]
    by_cases hsize : payload.length = x.size
    · rw [if_neg (not_not_intro hsize)]
      by_cases hid : own = id
      · rw [if_neg (not_not_intro hid)]
        subst hid
        exact .table _ ⟨rfl, hsize ▸ x.listed, trivial⟩ (x.encode payload hsize) (x.tableId payload)
      · rw [if_pos hid]
        exact .field _ _ (fun h => hid h.1.symm) listed
    · rw [if_pos hsize]
      refine .size _ _ _ ?_ listed
      rintro ⟨rfl, h, -⟩
      rw [x.listed] at h
      exact hsize (Except.ok.inj h).symm
  · have refused : (decodeOwn (T := T) TableType.decode TableType.tableId id payload revision).result =
        .error (.unknownTable id) := by
      rw [decodeOwn, Attempt.result_bind, Attempt.result_lift, Catalog.lookup_of_not_lists listed]
      rfl
    rw [refused]
    exact .unknown (fun h => listed (Catalog.lists_of_expectedSize h.2.1)) listed

def exactCarrier (revision : Revision) : Exact Carrier.Table TableId.carrier revision where
  size := Carrier.Table.imageForm.width
  table payload := Carrier.Table.ofImage (Carrier.Table.imageForm.decode payload)
  listed := Carrier.Table.expectedSize_eq revision
  result payload := Carrier.Table.result_decode payload revision
  encode _ := Carrier.Table.encode_decode
  tableId _ := rfl

def exactCard (revision : Revision) : Exact Card.Table (Card.layout revision).tableId revision where
  size := (Card.layout revision).tableLength
  table := Card.Table.ofPayload revision
  listed := Card.Table.expectedSize_eq revision
  result payload := Card.Table.result_decode payload revision
  encode _ := Card.Table.encode_ofPayload
  tableId _ := rfl

def exactInstall (revision : Revision) : Exact Install.Parameters TableId.install revision where
  size := Install.payloadLength
  table payload := ⟨(FixedWidth.bytes Install.payloadLength).decode payload⟩
  listed := by cases revision <;> rfl
  result payload := by
    have listed : Catalog.expectedSize TableId.install revision = .ok Install.payloadLength := by
      cases revision <;> rfl
    exact Catalog.result_validate_bind listed _
  encode payload h := (FixedWidth.bytes Install.payloadLength).encode_decode payload h
  tableId _ := rfl

/-! Tables of local call determination. -/

theorem outcome_decodeLcd (id : UInt8) (payload : Bytes) (revision : Revision) :
    Outcome (T := Lcd.Table) id payload
      ((0x88 ≤ id ∧ id ≤ 0x8a) ∧ Catalog.expectedSize id revision = .ok payload.length ∧
        Lcd.AreaCode.IsHeader (payload.take Lcd.headerLength))
      (Lcd.Table.decodeAs id payload revision).result := by
  by_cases owned : Lcd.Table.ownsId id = true
  · have listed := Lcd.Table.lists_of_ownsId owned
    have size := Lcd.Table.expectedSize_of_ownsId owned revision
    rw [Lcd.Table.result_decodeAs owned]
    by_cases hlen : payload.length = (Lcd.Packing.ofRevision revision).payloadLength
    · obtain ⟨answer, hread, hanswer⟩ := Lcd.Table.read?_spec id hlen
      rw [if_pos hlen, Lcd.Table.result_parse hread]
      rcases hanswer with ⟨hheader, t, rfl, hencode, hid, -⟩ | ⟨hheader, reason, rfl⟩
      · exact .table t ⟨(Lcd.Table.ownsId_iff id).1 owned, hlen ▸ size, hheader⟩ hencode hid
      · exact .field _ _ (fun h => hheader h.2.2) listed
    · rw [if_neg hlen]
      refine .size _ _ _ (fun h => ?_) listed
      rw [size] at h
      exact hlen (Except.ok.inj h.2.1).symm
  · have unnamed : ¬ (0x88 ≤ id ∧ id ≤ 0x8a) := fun h => owned ((Lcd.Table.ownsId_iff id).2 h)
    rw [Lcd.Table.decodeAs, Attempt.result_bind, Attempt.result_lift, Lcd.Table.checkId_eq, if_neg owned]
    by_cases listed : Catalog.Lists id
    · rw [if_pos listed]
      exact .field _ _ (fun h => unnamed h.1) listed
    · rw [if_neg listed]
      exact .unknown (fun h => unnamed h.1) listed

/-! All types of tables. -/

inductive TableKind
  | carrier
  | card
  | install
  | lcd
deriving Repr, DecidableEq

namespace TableKind

def Table : TableKind → Type
  | carrier => Carrier.Table
  | card => Card.Table
  | install => Install.Parameters
  | lcd => Lcd.Table

instance : (k : TableKind) → TableType k.Table
  | carrier => inferInstanceAs (TableType Carrier.Table)
  | card => inferInstanceAs (TableType Card.Table)
  | install => inferInstanceAs (TableType Install.Parameters)
  | lcd => inferInstanceAs (TableType Lcd.Table)

/-- The identifier names a table of the kind that exists in the revision. -/
def Names (k : TableKind) (id : UInt8) (revision : Revision) : Prop :=
  match k with
  | carrier => id = 0x85
  | card => id = (Card.layout revision).tableId
  | install => id = 0x1f
  | lcd => 0x88 ≤ id ∧ id ≤ 0x8a

/-- The payload begins as tables of the kind have to. -/
def Headed (k : TableKind) (payload : Bytes) : Prop :=
  match k with
  | lcd => Lcd.AreaCode.IsHeader (payload.take Lcd.headerLength)
  | _ => True

/-- The decoder has made the checks that stand before its first look at the payload. -/
def Checked (k : TableKind) (id : UInt8) (payload : Bytes) (revision : Revision) : Prop :=
  match k with
  | carrier => (Catalog.validate TableId.carrier revision payload.length).result = .ok ()
  | card => (Catalog.validate (Card.tableId revision) revision payload.length).result = .ok ()
  | install => (Catalog.validate TableId.install revision payload.length).result = .ok ()
  | lcd => Lcd.Table.checkId id = .ok () ∧ (Catalog.validate id revision payload.length).result = .ok ()

/-- Every access to the payload is within it: the carrier reader does not run out, all fields of all cards are
there, and so are the header and the classes of local call determination. Installation parameters are copied as a
whole. -/
def InBounds (k : TableKind) (id : UInt8) (payload : Bytes) (revision : Revision) : Prop :=
  match k with
  | carrier => ∃ t, Carrier.Table.read payload = .ok (t, [])
  | card => ∃ entries, Card.Table.entries? (Card.layout revision) payload = some entries
  | install => True
  | lcd => ∃ answer, Lcd.Table.read? id payload (Lcd.Packing.ofRevision revision) = some answer

theorem outcome_decodeAs (k : TableKind) (id : UInt8) (payload : Bytes) (revision : Revision) :
    Outcome (T := k.Table) id payload
      (k.Names id revision ∧ Catalog.expectedSize id revision = .ok payload.length ∧ k.Headed payload)
      (TableType.decodeAs id payload revision).result := by
  cases k with
  | carrier => exact outcome_decodeOwn (exactCarrier revision) id payload
  | card => exact outcome_decodeOwn (exactCard revision) id payload
  | install => exact outcome_decodeOwn (exactInstall revision) id payload
  | lcd => exact outcome_decodeLcd id payload revision

theorem inBounds_of_checked (k : TableKind) {id : UInt8} {payload : Bytes} {revision : Revision}
    (h : k.Checked id payload revision) : k.InBounds id payload revision := by
  cases k with
  | carrier =>
    have hlen := Catalog.eq_of_validate (Carrier.Table.expectedSize_eq revision) h
    exact ⟨_, Carrier.Table.read_of_length hlen⟩
  | card =>
    have hlen := Catalog.eq_of_validate (Card.Table.expectedSize_eq revision) h
    exact Card.Table.exists_entries? hlen
  | install => trivial
  | lcd =>
    obtain ⟨hid, hsize⟩ := h
    have owned : Lcd.Table.ownsId id = true := Lcd.Table.ownsId_of_checkId hid
    have hlen := Catalog.eq_of_validate (Lcd.Table.expectedSize_of_ownsId owned revision) hsize
    obtain ⟨answer, hread, -⟩ := Lcd.Table.read?_spec id hlen
    exact ⟨answer, hread⟩

end TableKind

/-- **Decoding accepts exactly the payloads of the catalog.** For a table of any type: an identifier of its own,
the length that the catalog gives in the revision, and for local call determination a header. What is accepted is
written as it was read; what is not is an unknown identifier if the catalog does not list it, and else a wrong
length or a bad field. No access to a payload fails. -/
theorem decodeAs_decides (k : TableKind) (id : UInt8) (payload : Bytes) (revision : Revision) :
    ((∃ t : k.Table, (TableType.decodeAs id payload revision).result = .ok t) ↔
      k.Names id revision ∧ Catalog.expectedSize id revision = .ok payload.length ∧ k.Headed payload) ∧
    (∀ t : k.Table, (TableType.decodeAs id payload revision).result = .ok t →
      TableType.encode t = payload ∧ TableType.tableId t = id) ∧
    (∀ e, (TableType.decodeAs (T := k.Table) id payload revision).result = .error e →
      (¬ Catalog.Lists id → e = .unknownTable id) ∧
      (Catalog.Lists id → (∃ table expected actual, e = .sizeMismatch table expected actual) ∨
        ∃ field reason, e = .invalidField field reason)) ∧
    (k.Checked id payload revision → k.InBounds id payload revision) := by
  have outcome := k.outcome_decodeAs id payload revision
  exact ⟨outcome.ok_iff, fun _ => outcome.of_ok, fun _ => outcome.of_error, k.inBounds_of_checked⟩

/-- Area code 408 in the packing of MTR 2.x, under the second identifier. -/
theorem decodeAs_decides_lcd :
    ∃ t : TableKind.lcd.Table,
      (TableType.decodeAs 0x89 ([0x40, 0x8e] ++ List.replicate 200 0x1b) .mtr2).result = .ok t ∧
      TableType.encode t = [0x40, 0x8e] ++ List.replicate 200 0x1b ∧ TableType.tableId t = 0x89 := by
  have decides := decodeAs_decides .lcd 0x89 ([0x40, 0x8e] ++ List.replicate 200 0x1b) .mtr2
  have header : Lcd.AreaCode.IsHeader [0x40, 0x8e] :=
    ⟨4, 0, 8, by decide, by decide, by decide, by decide, rfl⟩
  have names : TableKind.lcd.Names 0x89 .mtr2 := show (0x88 : UInt8) ≤ 0x89 ∧ (0x89 : UInt8) ≤ 0x8a by decide
  obtain ⟨t, ht⟩ := decides.1.2 ⟨names, rfl, header⟩
  exact ⟨t, ht, decides.2.1 t ht⟩

end Payphone
