import Payphone.Proofs.Checksum.Register
import Payphone.Proofs.Decoding
import Payphone.Proofs.Disk
import Payphone.Store

/-!
What a load gives, for every state of the files.

This file

1. shows that no load changes a file (`readOnly_load`, `readOnly_loadStamped`), so what a load gives is found step by
   step from one state (`result_load`, `result_loadStamped`);
2. names the reasons for which a load is refused in the order in which they are looked for (`Refusal`), and shows that
   there are no others (`refusal_iff`);
3. shows that the file of a table that is loaded holds that table and, if it is stamped, a checksum
   (`read_of_load`, `read_of_loadStamped`), and that a checksum that does not agree keeps no table from being loaded
   (`loadStamped_of_read`).
-/
namespace Payphone.Store

open Disk (ReadOnly)

variable {fs : FileSystem} {path : String} {id : UInt8} {revision : Revision}

/-! Files of a given length. -/

theorem readOnly_readSized (path : String) (id : UInt8) (expected : Nat) : ReadOnly (readSized path id expected) := by
  refine (ReadOnly.length path).bind fun actual => ReadOnly.ite ?_ ?_
  · exact (ReadOnly.note _ _).bind fun _ => ReadOnly.fail _
  · refine (ReadOnly.read path).bind fun bytes => ReadOnly.ite (ReadOnly.fail _) ?_
    exact (ReadOnly.note _ _).bind fun _ => ReadOnly.pure bytes

theorem result_readSized (path : String) (id : UInt8) (expected : Nat) (fs : FileSystem) :
    (readSized path id expected).result fs =
      ((fs.length path).mapError Disk.ofFileError).bind fun actual =>
        if actual ≠ expected then .error (.sizeMismatch id expected actual)
        else ((fs.read path).mapError Disk.ofFileError).bind fun bytes =>
          if bytes.length ≠ expected then .error (.sizeMismatch id expected bytes.length) else .ok bytes := by
  rw [readSized, (ReadOnly.length path).result_bind, Disk.result_length]
  congr 1
  funext actual
  by_cases hsize : actual ≠ expected
  · rw [if_pos hsize, if_pos hsize]
    rfl
  · rw [if_neg hsize, if_neg hsize, (ReadOnly.read path).result_bind, Disk.result_read]
    congr 1
    funext bytes
    by_cases hlen : bytes.length ≠ expected
    · rw [if_pos hlen, if_pos hlen]
      rfl
    · rw [if_neg hlen, if_neg hlen]
      rfl

theorem readSized_of_unreadable {e : FileError} (h : fs.length path = .error e) (expected : Nat) :
    (readSized path id expected).result fs = .error (.io e.message) := by
  rw [result_readSized, h]
  rfl

theorem readSized_of_length_ne {expected actual : Nat} (h : fs.length path = .ok actual) (hne : actual ≠ expected) :
    (readSized path id expected).result fs = .error (.sizeMismatch id expected actual) := by
  rw [result_readSized, h]
  exact if_pos hne

theorem readSized_of_unread {expected : Nat} (h : fs.length path = .ok expected) {e : FileError}
    (unread : fs.read path = .error e) : (readSized path id expected).result fs = .error (.io e.message) := by
  rw [result_readSized, h, unread]
  simp [Except.bind, Disk.ofFileError]

theorem readSized_of_read {expected : Nat} {bytes : Bytes} (h : fs.read path = .ok bytes)
    (hlen : bytes.length = expected) : (readSized path id expected).result fs = .ok bytes := by
  rw [result_readSized, FileSystem.length_of_read h, h]
  simp [Except.bind, hlen]

theorem read_of_readSized {expected : Nat} {bytes : Bytes} (h : (readSized path id expected).result fs = .ok bytes) :
    fs.read path = .ok bytes ∧ bytes.length = expected := by
  rw [result_readSized] at h
  obtain ⟨actual, -, h⟩ := bind_eq_ok.1 h
  by_cases hsize : actual ≠ expected
  · rw [if_pos hsize] at h
    cases h
  · rw [if_neg hsize] at h
    obtain ⟨stored, hread, h⟩ := bind_eq_ok.1 h
    by_cases hlen : stored.length ≠ expected
    · rw [if_pos hlen] at h
      cases h
    · rw [if_neg hlen] at h
      obtain rfl := Except.ok.inj h
      exact ⟨mapError_eq_ok.1 hread, not_not.1 hlen⟩

theorem readOnly_readPayload (path : String) (id : UInt8) (revision : Revision) :
    ReadOnly (readPayload path id revision) := by
  refine (ReadOnly.liftExcept _).bind fun info => (ReadOnly.liftExcept _).bind fun expected => ?_
  refine (readOnly_readSized path id expected).bind fun bytes => ?_
  exact (ReadOnly.note _ _).bind fun _ => ReadOnly.pure bytes

theorem result_readPayload (path : String) (id : UInt8) (revision : Revision) (fs : FileSystem) :
    (readPayload path id revision).result fs =
      (Catalog.expectedSize id revision).bind fun size => (readSized path id size).result fs := by
  rw [readPayload, (ReadOnly.liftExcept _).result_bind, Disk.result_liftExcept, Catalog.expectedSize_eq]
  cases Catalog.lookup id with
  | error e => rfl
  | ok info =>
    simp only [Except.bind]
    rw [(ReadOnly.liftExcept _).result_bind, Disk.result_liftExcept]
    cases info.payloadLength revision with
    | error e => rfl
    | ok size =>
      simp only [Except.bind]
      rw [(readOnly_readSized path id size).result_bind]
      cases (readSized path id size).result fs <;> rfl

/-! Loads. -/

section

variable {T : Type} [TableType T]

theorem readOnly_load (path : String) (id : UInt8) (revision : Revision) :
    ReadOnly (load (T := T) path id revision) :=
  (readOnly_readPayload path id revision).bind fun _ => ReadOnly.liftAttempt _

theorem readOnly_loadStamped (path : String) (id : UInt8) (revision : Revision) :
    ReadOnly (loadStamped (T := T) path id revision) := by
  refine (ReadOnly.liftExcept _).bind fun size => (readOnly_readSized path id _).bind fun bytes => ?_
  refine (ReadOnly.liftAttempt _).bind fun stamped => ReadOnly.ite ?_ ?_
  · exact (ReadOnly.liftAttempt _).bind fun table => ReadOnly.pure _
  · refine (ReadOnly.note _ _).bind fun _ => ?_
    exact (ReadOnly.liftAttempt _).bind fun table => ReadOnly.pure _

theorem result_load (path : String) (id : UInt8) (revision : Revision) (fs : FileSystem) :
    (load (T := T) path id revision).result fs =
      (Catalog.expectedSize id revision).bind fun size =>
        ((readSized path id size).result fs).bind fun payload =>
          (TableType.decodeAs (T := T) id payload revision).result := by
  rw [load, (readOnly_readPayload path id revision).result_bind, result_readPayload]
  cases Catalog.expectedSize id revision <;> rfl

/-- What is made of a stamped record: the table of its payload, and both checksums. -/
def ofStamped (T : Type) [TableType T] (id : UInt8) (revision : Revision) (s : Checksum.Stamped) :
    Except TableError (StampedTable T) :=
  (TableType.decodeAs (T := T) id s.payload revision).result.map fun table => ⟨table, s.stored, s.calculated⟩

theorem result_loadStamped (path : String) (id : UInt8) (revision : Revision) (fs : FileSystem) :
    (loadStamped (T := T) path id revision).result fs =
      (Catalog.expectedSize id revision).bind fun size =>
        ((readSized path id (size + Checksum.trailerLength)).result fs).bind fun bytes =>
          ofStamped T id revision (Checksum.split Checksum.defaultSeed bytes) := by
  rw [loadStamped, (ReadOnly.liftExcept _).result_bind, Disk.result_liftExcept]
  congr 1
  funext size
  rw [(readOnly_readSized path id _).result_bind]
  cases hread : (readSized path id (size + Checksum.trailerLength)).result fs with
  | error e => rfl
  | ok bytes =>
    -- the file is long enough for a trailer, because it has a payload and a trailer
    have hlen : 2 ≤ bytes.length := by
      rw [(read_of_readSized hread).2, Checksum.trailerLength]
      omega
    simp only [Except.bind]
    rw [(ReadOnly.liftAttempt _).result_bind, Disk.result_liftAttempt, Checksum.unstamp,
      Checksum.result_unstampWith Checksum.defaultSeed hlen]
    simp only [Except.bind]
    have table (s : Checksum.Stamped) : Disk.result (do
          let table ← liftM (TableType.decodeAs (T := T) id s.payload revision)
          pure ⟨table, s.stored, s.calculated⟩) fs = ofStamped T id revision s := by
      rw [(ReadOnly.liftAttempt _).result_bind, Disk.result_liftAttempt, ofStamped]
      cases (TableType.decodeAs (T := T) id s.payload revision).result <;> rfl
    by_cases valid : (Checksum.split Checksum.defaultSeed bytes).isValid = true
    · rw [if_pos valid, table]
    · rw [if_neg valid, (ReadOnly.note _ _).result_bind, Disk.result_note]
      exact table _

/-- What is loaded from a file that can be read: its table, if it has the right length. -/
theorem result_load_of_read {bytes : Bytes} (h : fs.read path = .ok bytes) :
    (load (T := T) path id revision).result fs = (Catalog.expectedSize id revision).bind fun size =>
      if bytes.length = size then (TableType.decodeAs (T := T) id bytes revision).result
      else .error (.sizeMismatch id size bytes.length) := by
  rw [result_load]
  congr 1
  funext size
  by_cases same : bytes.length = size
  · rw [if_pos same, readSized_of_read h same]
    rfl
  · rw [if_neg same, readSized_of_length_ne (FileSystem.length_of_read h) same]
    rfl

theorem result_loadStamped_of_read {payload : Bytes} {w : UInt16} (h : fs.read path = .ok (payload ++ Bytes.ofWord w)) :
    (loadStamped (T := T) path id revision).result fs = (Catalog.expectedSize id revision).bind fun size =>
      if payload.length = size then
        (TableType.decodeAs (T := T) id payload revision).result.map fun table => ⟨table, w, Checksum.crc16 0 payload⟩
      else
        .error (.sizeMismatch id (size + Checksum.trailerLength) (payload.length + Checksum.trailerLength)) := by
  have hlen : (payload ++ Bytes.ofWord w).length = payload.length + Checksum.trailerLength := by
    rw [List.length_append, Bytes.length_ofWord, Checksum.trailerLength]
  rw [result_loadStamped]
  congr 1
  funext size
  by_cases same : payload.length = size
  · rw [if_pos same, readSized_of_read h (hlen.trans (congrArg (· + Checksum.trailerLength) same))]
    simp only [Except.bind]
    rw [Checksum.split_append_ofWord]
    rfl
  · have differs : payload.length + Checksum.trailerLength ≠ size + Checksum.trailerLength := by omega
    rw [if_neg same, readSized_of_length_ne (FileSystem.length_of_read h) (hlen ▸ differs), hlen]
    rfl

end

/-! Refusals. -/

/-- Why a file is not loaded that should hold a payload and a trailer of so many bytes: the reasons in the order in
which they are looked for, each where none of those before it is given. -/
inductive Refusal (T : Type) [TableType T] (fs : FileSystem) (path : String) (id : UInt8) (revision : Revision)
    (trailer : Nat) : TableError → Prop
  | unknown (unlisted : ¬ Catalog.Lists id) : Refusal T fs path id revision trailer (.unknownTable id)
  | unsupported {info : TableInfo} (listed : info ∈ Catalog.all) (own : info.id = id)
      (absent : info.payloadLength? revision = none) :
    Refusal T fs path id revision trailer (.unsupportedRevision id revision)
  | unreadable {size : Nat} (listed : Catalog.expectedSize id revision = .ok size) {reason : FileError}
      (h : fs.length path = .error reason) : Refusal T fs path id revision trailer (.io reason.message)
  | size {size actual : Nat} (listed : Catalog.expectedSize id revision = .ok size)
      (h : fs.length path = .ok actual) (differs : actual ≠ size + trailer) :
    Refusal T fs path id revision trailer (.sizeMismatch id (size + trailer) actual)
  /-- A folder that reports the length of the file. -/
  | folder {size : Nat} (listed : Catalog.expectedSize id revision = .ok size)
      (same : fs.length path = .ok (size + trailer)) (unread : fs.read path = .error .isFolder) :
    Refusal T fs path id revision trailer (.io FileError.isFolder.message)
  | payload {size : Nat} {bytes : Bytes} (listed : Catalog.expectedSize id revision = .ok size)
      (h : fs.read path = .ok bytes) (same : bytes.length = size + trailer) {e : TableError}
      (refused : (TableType.decodeAs (T := T) id (bytes.take size) revision).result = .error e) :
    Refusal T fs path id revision trailer e

section

variable {T α : Type} [TableType T] {trailer : Nat} {finish : Bytes → Except TableError α}

/-- A load that opens a file of the right length is refused for one of these reasons if what is made of the bytes is
refused only where decoding their payload is. -/
theorem refusal_of_error
    (h : ∀ size bytes e, bytes.length = size + trailer → finish bytes = .error e →
      (TableType.decodeAs (T := T) id (bytes.take size) revision).result = .error e) {e : TableError}
    (failed : ((Catalog.expectedSize id revision).bind fun size =>
      ((readSized path id (size + trailer)).result fs).bind finish) = .error e) :
    Refusal T fs path id revision trailer e := by
  rcases Catalog.expectedSize_cases id revision with
    ⟨unlisted, hsize⟩ | ⟨info, listed, own, absent, hsize⟩ | ⟨size, hsize⟩
  · rw [hsize] at failed
    obtain rfl := Except.error.inj failed
    exact .unknown unlisted
  · rw [hsize] at failed
    obtain rfl := Except.error.inj failed
    exact .unsupported listed own absent
  · rw [hsize] at failed
    simp only [Except.bind] at failed
    cases hlength : fs.length path with
    | error reason =>
      rw [readSized_of_unreadable hlength] at failed
      obtain rfl := Except.error.inj failed
      exact .unreadable hsize hlength
    | ok actual =>
      by_cases differs : actual ≠ size + trailer
      · rw [readSized_of_length_ne hlength differs] at failed
        obtain rfl := Except.error.inj failed
        exact .size hsize hlength differs
      · -- the length does not tell whether a file is there
        rw [not_not.1 differs] at hlength
        rcases FileSystem.read_cases_of_length hlength with ⟨bytes, hread, same⟩ | unread
        · rw [readSized_of_read hread same] at failed
          exact .payload hsize hread same (h size bytes e same failed)
        · rw [readSized_of_unread hlength unread] at failed
          obtain rfl := Except.error.inj failed
          exact .folder hsize hlength unread

/-- Each of the reasons is given where it is there. -/
theorem error_of_refusal
    (h : ∀ size bytes e, bytes.length = size + trailer →
      (TableType.decodeAs (T := T) id (bytes.take size) revision).result = .error e → finish bytes = .error e)
    {e : TableError} (refusal : Refusal T fs path id revision trailer e) :
    ((Catalog.expectedSize id revision).bind fun size =>
      ((readSized path id (size + trailer)).result fs).bind finish) = .error e := by
  cases refusal with
  | unknown unlisted =>
    rw [Catalog.expectedSize_of_not_lists unlisted]
    rfl
  | unsupported listed own absent =>
    rw [Catalog.expectedSize_of_absent listed own absent]
    rfl
  | unreadable hsize hlength =>
    rw [hsize]
    simp only [Except.bind, readSized_of_unreadable hlength]
  | size hsize hlength differs =>
    rw [hsize]
    simp only [Except.bind, readSized_of_length_ne hlength differs]
  | folder hsize hlength unread =>
    rw [hsize]
    simp only [Except.bind, readSized_of_unread hlength unread]
  | payload hsize hread same refused =>
    rw [hsize]
    simp only [Except.bind, readSized_of_read hread same]
    exact h _ _ e same refused

/-- A load that opens a file of the right length and then goes by what decoding its payload gives is refused for
these reasons and no others. -/
theorem refusal_iff (trailer : Nat)
    (h : ∀ size bytes e, bytes.length = size + trailer → (finish bytes = .error e ↔
      (TableType.decodeAs (T := T) id (bytes.take size) revision).result = .error e)) (e : TableError) :
    ((Catalog.expectedSize id revision).bind fun size =>
        ((readSized path id (size + trailer)).result fs).bind finish) = .error e ↔
      Refusal T fs path id revision trailer e :=
  ⟨refusal_of_error fun size bytes e same => (h size bytes e same).1,
    error_of_refusal fun size bytes e same => (h size bytes e same).2⟩

end

/-! Loads of all types of tables. -/

/-- The file of a table that is loaded holds what the table is written as, and nothing else. -/
theorem read_of_load {k : TableKind} {u : k.Table} (h : (load path id revision).result fs = .ok u) :
    fs.read path = .ok (TableType.encode u) ∧ Catalog.expectedSize id revision = .ok (TableType.encode u).length ∧
      TableType.tableId u = id := by
  rw [result_load] at h
  obtain ⟨size, hsize, h⟩ := bind_eq_ok.1 h
  obtain ⟨payload, hread, h⟩ := bind_eq_ok.1 h
  obtain ⟨stored, hlen⟩ := read_of_readSized hread
  obtain ⟨same, own⟩ := (k.outcome_decodeAs id payload revision).of_ok h
  exact ⟨by rw [same, stored], by rw [same, hlen, hsize], own⟩

/-- The file of a stamped table that is loaded holds what the table is written as and the checksum found there. -/
theorem read_of_loadStamped {k : TableKind} {s : StampedTable k.Table}
    (h : (loadStamped path id revision).result fs = .ok s) :
    fs.read path = .ok (TableType.encode s.table ++ Bytes.ofWord s.stored) ∧ TableType.tableId s.table = id ∧
      s.calculated = Checksum.crc16 0 (TableType.encode s.table) := by
  rw [result_loadStamped] at h
  obtain ⟨size, -, h⟩ := bind_eq_ok.1 h
  obtain ⟨bytes, hread, h⟩ := bind_eq_ok.1 h
  obtain ⟨stored, hlen⟩ := read_of_readSized hread
  have long : 2 ≤ bytes.length := by
    rw [hlen, Checksum.trailerLength]
    omega
  obtain ⟨payload, w, rfl⟩ := Checksum.exists_trailer long
  rw [Checksum.split_append_ofWord] at h
  obtain ⟨table, hdecode, rfl⟩ := map_eq_ok.1 h
  obtain ⟨same, own⟩ := (k.outcome_decodeAs id payload revision).of_ok hdecode
  exact ⟨by rw [same, stored], own, by rw [same]; rfl⟩

theorem verified_iff {T : Type} (s : StampedTable T) : (∃ t, s.verified = .ok t) ↔ s.stored = s.calculated := by
  unfold StampedTable.verified StampedTable.isValid
  by_cases h : s.stored = s.calculated <;> simp [h]

theorem ofWord_injective {v w : UInt16} (h : Bytes.ofWord v = Bytes.ofWord w) : v = w := by
  rw [← Bytes.word_ofWord v, h, Bytes.word_ofWord]

/-- A payload that is accepted is loaded with its trailer, whatever the trailer says. -/
theorem loadStamped_of_read {k : TableKind} {payload : Bytes} {w : UInt16} {u : k.Table}
    (hread : fs.read path = .ok (payload ++ Bytes.ofWord w))
    (hdecode : (TableType.decodeAs id payload revision).result = .ok u) :
    (loadStamped path id revision).result fs = .ok ⟨u, w, Checksum.crc16 0 payload⟩ := by
  have accepted := (k.outcome_decodeAs id payload revision).ok_iff.1 ⟨u, hdecode⟩
  rw [result_loadStamped_of_read hread, accepted.2.1]
  simp only [Except.bind, if_true]
  rw [hdecode]
  rfl

/-- **Loads are decided by the bytes of the file.** A table that is loaded is all that its file holds, and it is the
one asked for. A stamped table comes with the checksum found behind it and the one of its payload, is verified
exactly if the file is the stamped payload, and is loaded whatever the checksum says. A load is refused for the
first reason that there is: an identifier that is not known, a revision without the table, a file that cannot be
found, a wrong length, a folder of the right length, and last what decoding says. Nothing is written. -/
theorem loads_decided (k : TableKind) (fs : FileSystem) (path : String) (id : UInt8) (revision : Revision) :
    (∀ u : k.Table, (load path id revision).result fs = .ok u →
      fs.read path = .ok (TableType.encode u) ∧
      Catalog.expectedSize id revision = .ok (TableType.encode u).length ∧ TableType.tableId u = id) ∧
    (∀ s : StampedTable k.Table, (loadStamped path id revision).result fs = .ok s →
      fs.read path = .ok (TableType.encode s.table ++ Bytes.ofWord s.stored) ∧
      TableType.tableId s.table = id ∧ s.calculated = Checksum.crc16 0 (TableType.encode s.table) ∧
      ((∃ t, s.verified = .ok t) ↔ fs.read path = .ok (Checksum.stamp (TableType.encode s.table)))) ∧
    (∀ (payload : Bytes) (w : UInt16) (u : k.Table), fs.read path = .ok (payload ++ Bytes.ofWord w) →
      (TableType.decodeAs id payload revision).result = .ok u →
      (loadStamped path id revision).result fs = .ok ⟨u, w, Checksum.crc16 0 payload⟩) ∧
    (∀ e, (load (T := k.Table) path id revision).result fs = .error e ↔
      Refusal k.Table fs path id revision 0 e) ∧
    (∀ e, (loadStamped (T := k.Table) path id revision).result fs = .error e ↔
      Refusal k.Table fs path id revision 2 e) ∧
    (load (T := k.Table) path id revision).files fs = fs ∧
    (loadStamped (T := k.Table) path id revision).files fs = fs := by
  refine ⟨fun u h => read_of_load h, ?_, fun payload w u => loadStamped_of_read, ?_, ?_,
    readOnly_load path id revision fs, readOnly_loadStamped path id revision fs⟩
  · intro s h
    obtain ⟨stored, own, calculated⟩ := read_of_loadStamped h
    refine ⟨stored, own, calculated, ?_⟩
    rw [verified_iff, stored, Checksum.stamp, Checksum.stampWith, Checksum.defaultSeed, ← calculated]
    constructor
    · intro valid
      rw [valid]
    · intro same
      exact ofWord_injective (List.append_cancel_left (Except.ok.inj same))
  · intro e
    rw [result_load]
    refine refusal_iff (T := k.Table) 0 (fun size bytes e same => ?_) e
    rw [List.take_of_length_le (by omega)]
  · intro e
    rw [result_loadStamped]
    refine refusal_iff (T := k.Table) 2 (fun size bytes e same => ?_) e
    -- the payload is what is left of the file without its last two bytes
    have payload : (Checksum.split Checksum.defaultSeed bytes).payload = bytes.take size := by
      rw [Checksum.split, Checksum.trailerLength, same, Nat.add_sub_cancel]
    rw [ofStamped, payload]
    cases (TableType.decodeAs (T := k.Table) id (bytes.take size) revision).result <;> simp [Except.map]

/-- Installation parameters in a plain file, and in a stamped one with a wrong checksum. -/
theorem loads_decided_install :
    let payload : Bytes := List.replicate 45 7
    let fs : FileSystem :=
      { nodes := [(⟨.start 0, ["plain"]⟩, .file payload), (⟨.start 0, ["stamped"]⟩, .file (payload ++ [1, 2]))] }
    (∃ u : TableKind.install.Table, (load "plain" 0x1f .mtr1).result fs = .ok u ∧
      fs.read "plain" = .ok (TableType.encode u) ∧ TableType.tableId u = 0x1f) ∧
    ∃ s : StampedTable TableKind.install.Table, (loadStamped "./stamped" 0x1f .mtr2).result fs = .ok s ∧
      s.stored = 0x0201 ∧ fs.read "./stamped" = .ok (TableType.encode s.table ++ [1, 2]) := by
  intro payload fs
  constructor
  · obtain ⟨u, hu⟩ : ∃ u : TableKind.install.Table, (load "plain" 0x1f .mtr1).result fs = .ok u := ⟨_, rfl⟩
    have decided := (loads_decided .install fs "plain" 0x1f .mtr1).1 u hu
    exact ⟨u, hu, decided.1, decided.2.2⟩
  · have trailer : Bytes.ofWord 0x0201 = [1, 2] := rfl
    have stored : fs.read "./stamped" = .ok (payload ++ Bytes.ofWord 0x0201) := rfl
    obtain ⟨u, hu⟩ : ∃ u : TableKind.install.Table, (TableType.decodeAs 0x1f payload .mtr2).result = .ok u := ⟨_, rfl⟩
    have loaded := (loads_decided .install fs "./stamped" 0x1f .mtr2).2.2.1 payload 0x0201 u stored hu
    have hread : fs.read "./stamped" = .ok (TableType.encode u ++ Bytes.ofWord 0x0201) :=
      ((loads_decided .install fs "./stamped" 0x1f .mtr2).2.1 _ loaded).1
    exact ⟨_, loaded, rfl, hread.trans (by rw [trailer])⟩

/-- A folder that reports the length of installation parameters. -/
example : (load (T := Install.Parameters) "folder" 0x1f .mtr1).result
    { nodes := [(⟨.start 0, ["folder"]⟩, .folder)], folderLength := fun _ => 45 } =
      .error (.io FileError.isFolder.message) := rfl

end Payphone.Store
