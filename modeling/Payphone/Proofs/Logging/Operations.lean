import Payphone.Proofs.Lcd.Detecting
import Payphone.Proofs.Logging.Rules
import Payphone.Proofs.Store.Runs

/-!
Which operations log wrong lengths, wrong checksums and files.

1. The check of the catalog warns of a wrong length (`warns_validate`). Decoding, conversion and the operations on files
   leave the length to it or warn themselves, and what they refuse behind it is refused for other reasons
   (`warns_decodeAs`, `warns_perform`).
2. A checksum that does not agree is warned of before the table is decoded (`warns_loadStamped_checksum`).
3. The operations on files report their success, if they go by way of `readPayload` or `writePayload`
   (`reports_perform`).
4. The other paths are seen from the levels of their records: detection compares the length itself and never warns
   (`levels_detect`), and a stamped file is read without a report (`levels_loadStamped`).

Nothing else is taken to write files while an operation runs: each step begins with the state that the one before left.
The second look that `Store.readSized` takes at a length refuses, without a record, what was changed between the report
of the length and the reading. Under this assumption it finds no change (`Store.warns_readSized`), and what is said of
the operations on files is said under this assumption only.

`refusals_and_files_logged` puts this together, and `refusals_and_loads_unlogged` has an input for each of the paths that
do not log.
-/
namespace Payphone

open Log (Level)

/-! Refusals for other reasons. -/

namespace NoSizeMismatch

theorem lookup (id : UInt8) : NoSizeMismatch (Catalog.lookup id) := by
  intro table expected actual h
  unfold Catalog.lookup at h
  split at h <;> cases h

theorem payloadLength (info : TableInfo) (revision : Revision) : NoSizeMismatch (info.payloadLength revision) := by
  intro table expected actual h
  unfold TableInfo.payloadLength at h
  split at h <;> cases h

theorem expectedSize (id : UInt8) (revision : Revision) : NoSizeMismatch (Catalog.expectedSize id revision) :=
  (lookup id).bind fun info => payloadLength info revision

theorem nameOf (id : UInt8) : NoSizeMismatch (Catalog.nameOf id) := (lookup id).bind fun info => .ok info.name

theorem checkId (id : UInt8) : NoSizeMismatch (Lcd.Table.checkId id) := by
  intro table expected actual h
  rw [Lcd.Table.checkId_eq] at h
  split_ifs at h <;> cases h

theorem unstampWith (seed : UInt16) (record : Bytes) : NoSizeMismatch (Checksum.unstampWith seed record).result := by
  by_cases short : record.length < Checksum.trailerLength
  · rw [Checksum.unstampWith, if_pos short]
    exact nofun
  · rw [Checksum.result_unstampWith seed (Nat.le_of_not_lt short)]
    exact .ok _

end NoSizeMismatch

/-! Decoding. -/

theorem warns_validate (id : UInt8) (revision : Revision) (actual : Nat) :
    (Catalog.validate id revision actual).WarnsOfSize := by
  refine .bind (.lift (.lookup id)) fun info _ => .bind (.lift (.payloadLength info revision)) fun expected _ => ?_
  refine .ite (fun _ => .of_logs ?_) (fun _ => .note _ _)
  exact (Attempt.logs_note .warn _).bind_left _

theorem warns_decodeOwn {T : Type} {decode : Bytes → Revision → Attempt T} (tableId : T → UInt8) (id : UInt8)
    {payload : Bytes} {revision : Revision} (h : (decode payload revision).WarnsOfSize) :
    (decodeOwn decode tableId id payload revision).WarnsOfSize := by
  -- a table under another identifier is refused for a field
  refine .bind (.lift (.lookup id)) fun _ _ => .bind h fun table _ => .ite (fun _ => .bind ?_ ?_) (fun _ => .pure table)
  · exact .throw nofun
  · exact fun _ _ => .pure table

theorem warns_decodeCarrier (payload : Bytes) (revision : Revision) :
    (Carrier.Table.decode payload revision).WarnsOfSize := by
  refine .bind (warns_validate _ _ _) fun _ _ => .bind (.lift (.mapError nofun)) fun read _ => ?_
  exact .bind (.note _ _) fun _ _ => .pure _

theorem warns_decodeCard (payload : Bytes) (revision : Revision) : (Card.Table.decode payload revision).WarnsOfSize :=
  .bind (warns_validate _ _ _) fun _ _ => .bind (.note _ _) fun _ _ => .pure _

theorem warns_decodeInstall (payload : Bytes) (revision : Revision) :
    (Install.Parameters.decode payload revision).WarnsOfSize :=
  .bind (warns_validate _ _ _) fun _ _ => .pure _

/-- Behind a header and the right number of classes a payload can be read. -/
theorem warns_parse (id : UInt8) {payload : Bytes} {packing : Lcd.Packing}
    (h : payload.length = packing.payloadLength) : (Lcd.Table.parse id payload packing).WarnsOfSize := by
  obtain ⟨answer, hread, hanswer⟩ := Lcd.Table.read?_spec id h
  refine .of_answer ?_
  rw [Lcd.Table.result_parse hread]
  rcases hanswer with ⟨-, t, rfl, -⟩ | ⟨-, reason, rfl⟩
  · exact .ok t
  · exact nofun

theorem warns_decodeLcd (id : UInt8) (payload : Bytes) (revision : Revision) :
    (Lcd.Table.decodeAs id payload revision).WarnsOfSize := by
  refine .bind (.lift (.checkId id)) fun _ checked => .bind (warns_validate _ _ _) fun _ validated => ?_
  -- the length that the catalog gives is the one of the packing
  have owned := Lcd.Table.ownsId_of_checkId checked
  exact warns_parse id (Catalog.eq_of_validate (Lcd.Table.expectedSize_of_ownsId owned revision) validated)

theorem warns_decode (k : TableKind) (payload : Bytes) (revision : Revision) :
    (TableType.decode (T := k.Table) payload revision).WarnsOfSize := by
  cases k with
  | carrier => exact warns_decodeCarrier payload revision
  | card => exact warns_decodeCard payload revision
  | install => exact warns_decodeInstall payload revision
  | lcd => exact warns_decodeLcd TableId.lcd1 payload revision

theorem warns_decodeAs (k : TableKind) (id : UInt8) (payload : Bytes) (revision : Revision) :
    (TableType.decodeAs (T := k.Table) id payload revision).WarnsOfSize := by
  cases k with
  | carrier => exact warns_decodeOwn _ id (warns_decodeCarrier payload revision)
  | card => exact warns_decodeOwn _ id (warns_decodeCard payload revision)
  | install => exact warns_decodeOwn _ id (warns_decodeInstall payload revision)
  | lcd => exact warns_decodeLcd id payload revision

theorem warns_ofRecord (tag : UInt8) (payload : Bytes) (revision : Revision) :
    (Carrier.Table.ofRecord (tag :: payload) revision).WarnsOfSize := by
  refine .ite (fun _ => warns_decodeCarrier payload revision) (fun _ => ?_)
  exact .bind (.lift (.lookup tag)) fun _ _ => .throw nofun

theorem warns_convertPayload (payload : Bytes) (source target : Revision) :
    (Card.convertPayload payload source target).WarnsOfSize := by
  refine .bind (warns_validate _ _ _) fun _ _ => .bind (.lift (.nameOf _)) fun sourceName _ => ?_
  refine .bind (.lift (.nameOf _)) fun targetName _ => .bind (.note _ _) fun _ _ => ?_
  exact .of_answer (.ok (Layout.remap payload (Card.layout source) (Card.layout target)))

/-! Checksums. -/

theorem warns_unstampWith {seed : UInt16} {record : Bytes} {s : Checksum.Stamped}
    (h : (Checksum.unstampWith seed record).result = .ok s) (differs : s.stored ≠ s.calculated) :
    (Checksum.unstampWith seed record).Logs .warn := by
  by_cases short : record.length < Checksum.trailerLength
  · rw [Checksum.unstampWith, if_pos short] at h
    cases h
  · rw [Checksum.result_unstampWith seed (Nat.le_of_not_lt short)] at h
    obtain rfl := Except.ok.inj h
    have invalid : ¬ (Checksum.split seed record).isValid = true := fun valid => differs (beq_iff_eq.1 valid)
    rw [Checksum.unstampWith, if_neg short]
    simp only [if_neg invalid]
    exact (Attempt.logs_note .warn _).bind_left _

/-! Levels. -/

section

variable (id : UInt8) (payload : Bytes) (revision : Revision)

theorem levels_validate (actual : Nat) : (Catalog.validate id revision actual).LogsOnly [.warn, .debug] := by
  refine .bind (.lift _) fun info => .bind (.lift _) fun expected => .ite (.bind ?_ ?_) ?_
  · exact .note (by decide) _
  · exact fun _ => .bind (.throw _) fun _ => .note (by decide) _
  · exact .note (by decide) _

theorem levels_decodeOwn {T : Type} {decode : Bytes → Revision → Attempt T} (tableId : T → UInt8)
    (h : (decode payload revision).LogsOnly [.warn, .debug]) :
    (decodeOwn decode tableId id payload revision).LogsOnly [.warn, .debug] :=
  .bind (.lift _) fun _ => .bind h fun table => .ite (.bind (.throw _) fun _ => .pure table) (.pure table)

theorem levels_parse (packing : Lcd.Packing) : (Lcd.Table.parse id payload packing).LogsOnly [.debug] :=
  .bind (.lift _) fun table => .bind (.note (by decide) _) fun _ => .pure table

/-- Detection compares the length itself, and never warns. -/
theorem levels_detect : (Lcd.Table.detect id payload).LogsOnly [.debug] := by
  refine .bind (.lift _) fun _ => ?_
  cases Lcd.Packing.ofPayloadLength? payload.length with
  | none => exact .throw _
  | some packing => exact levels_parse id payload packing

theorem levels_decodeAs (k : TableKind) :
    (TableType.decodeAs (T := k.Table) id payload revision).LogsOnly [.warn, .debug] := by
  cases k with
  | carrier =>
    refine levels_decodeOwn id payload revision _ (.bind (levels_validate _ _ _) fun _ => ?_)
    exact .bind (.lift _) fun _ => .bind (.note (by decide) _) fun _ => .pure _
  | card =>
    refine levels_decodeOwn id payload revision _ (.bind (levels_validate _ _ _) fun _ => ?_)
    exact .bind (.note (by decide) _) fun _ => .pure _
  | install => exact levels_decodeOwn id payload revision _ (.bind (levels_validate _ _ _) fun _ => .pure _)
  | lcd =>
    refine .bind (.lift _) fun _ => .bind (levels_validate _ _ _) fun _ => ?_
    exact (levels_parse id payload _).mono (by decide)

end

theorem levels_unstampWith (seed : UInt16) (record : Bytes) :
    (Checksum.unstampWith seed record).LogsOnly [.warn, .debug] := by
  refine .ite (.bind (.throw _) fun _ => ?_) ?_
  · exact .ite (.pure _) (.bind (.note (by decide) _) fun _ => .pure _)
  · exact .ite (.pure _) (.bind (.note (by decide) _) fun _ => .pure _)

/-! Files. -/

namespace Store

variable (path : String) (id : UInt8) (revision : Revision) (fs : FileSystem)

/-- What was read has the length that was reported, because both are asked of the same state of the files. The second
look at the length, which would refuse without a record, is for files that something else writes meanwhile. -/
theorem warns_readSized (expected : Nat) : ((readSized path id expected).attempt fs).WarnsOfSize := by
  refine Disk.warns_bind (Disk.warns_examine _) fun actual reported => ?_
  rw [Disk.ReadOnly.length path fs, Disk.attempt_ite]
  refine .ite (fun _ => .of_logs ?_) (fun accepted => ?_)
  · exact Disk.logs_bind_left (Attempt.logs_note .warn _) _
  · refine Disk.warns_bind (Disk.warns_examine _) fun bytes stored => ?_
    rw [Disk.result_length] at reported
    rw [Disk.result_read] at stored
    have length := FileSystem.length_of_read (mapError_eq_ok.1 stored)
    rw [mapError_eq_ok.1 reported] at length
    have same : ¬ bytes.length ≠ expected := by
      rw [← Except.ok.inj length]
      exact accepted
    rw [if_neg same]
    exact .of_answer (.ok bytes)

theorem levels_readSized (expected : Nat) : ((readSized path id expected).attempt fs).LogsOnly [.warn, .debug] := by
  refine Disk.levels_bind (Disk.levels_examine _) fun actual => ?_
  rw [Disk.attempt_ite]
  refine .ite (Disk.levels_bind (.note (by decide) _) fun _ => .throw _) ?_
  refine Disk.levels_bind (Disk.levels_examine _) fun bytes => ?_
  rw [Disk.attempt_ite]
  exact .ite (.throw _) (Disk.levels_bind (.note (by decide) _) fun _ => .pure bytes)

theorem warns_readPayload : ((readPayload path id revision).attempt fs).WarnsOfSize := by
  refine Disk.warns_bind (.lift (.lookup id)) fun info _ => ?_
  refine Disk.warns_bind (.lift (.payloadLength info revision)) fun expected _ => ?_
  exact Disk.warns_bind (warns_readSized path id _ expected) fun bytes _ => .of_answer (.ok bytes)

theorem reports_readPayload : ((readPayload path id revision).attempt fs).ReportsSuccess := by
  refine Disk.reports_bind fun info _ => Disk.reports_bind fun expected _ => Disk.reports_bind fun bytes _ => ?_
  exact Disk.reports_bind_left (.of_logs (Attempt.logs_note .info _))

theorem reports_writePayload (payload : Bytes) : ((writePayload path payload).attempt fs).ReportsSuccess :=
  Disk.reports_bind fun _ _ => .of_logs (Attempt.logs_note .info _)

theorem warns_writePayload (payload : Bytes) : ((writePayload path payload).attempt fs).WarnsOfSize := by
  refine Disk.warns_bind (.of_answer ?_) fun _ _ => .note _ _
  cases written : fs.write path payload with
  | ok fs' =>
    rw [Disk.result_attempt, (Disk.write_of_ok written).1]
    exact .ok ()
  | error e =>
    rw [Disk.result_attempt, (Disk.write_of_error written).1]
    exact nofun

section

variable (k : TableKind)

theorem warns_load : ((load (T := k.Table) path id revision).attempt fs).WarnsOfSize :=
  Disk.warns_bind (warns_readPayload path id revision fs) fun payload _ => warns_decodeAs k id payload revision

theorem warns_loadStamped : ((loadStamped (T := k.Table) path id revision).attempt fs).WarnsOfSize := by
  refine Disk.warns_bind (.lift (.expectedSize id revision)) fun size _ => ?_
  refine Disk.warns_bind (warns_readSized path id _ _) fun bytes _ => ?_
  refine Disk.warns_bind (.of_answer (.unstampWith _ bytes)) fun stamped _ => ?_
  -- behind a wrong checksum a warning is there, whatever decoding says
  rw [Disk.attempt_ite]
  refine .ite (fun _ => ?_) (fun _ => .of_logs ?_)
  · exact Disk.warns_bind (warns_decodeAs k id _ revision) fun table _ => .pure _
  · exact Disk.logs_bind_left (Attempt.logs_note .warn _) _

theorem levels_loadStamped : ((loadStamped (T := k.Table) path id revision).attempt fs).LogsOnly [.warn, .debug] := by
  refine Disk.levels_bind (.lift _) fun size => Disk.levels_bind (levels_readSized path id _ _) fun bytes => ?_
  refine Disk.levels_bind (levels_unstampWith _ bytes) fun stamped => ?_
  rw [Disk.attempt_ite]
  refine .ite ?_ (Disk.levels_bind (.note (by decide) _) fun _ => ?_)
  · exact Disk.levels_bind (levels_decodeAs id _ revision k) fun table => .pure _
  · exact Disk.levels_bind (levels_decodeAs id _ revision k) fun table => .pure _

end

variable {path id revision fs}

/-- A wrong checksum is warned of whatever the table is then refused for. -/
theorem warns_loadStamped_checksum (k : TableKind) {size : Nat} {bytes : Bytes}
    (listed : Catalog.expectedSize id revision = .ok size) (stored : fs.read path = .ok bytes)
    (length : bytes.length = size + Checksum.trailerLength)
    (differs : (Checksum.split 0 bytes).stored ≠ (Checksum.split 0 bytes).calculated) :
    ((loadStamped (T := k.Table) path id revision).attempt fs).Logs .warn := by
  have long : 2 ≤ bytes.length := by
    rw [length, Checksum.trailerLength]
    omega
  have unstamped := Checksum.result_unstampWith 0 long
  refine Disk.logs_bind_right (x := liftM (Catalog.expectedSize id revision)) listed ?_
  refine Disk.logs_bind_right (readSized_of_read stored length) ?_
  exact Disk.logs_bind_left (warns_unstampWith unstamped differs) _

namespace Operation

theorem warns_perform (op : Operation) (fs : FileSystem) : (op.perform.attempt fs).WarnsOfSize := by
  cases op with
  | readPayload path id revision => exact Disk.warns_bind (warns_readPayload path id revision fs) fun _ _ => .pure ()
  | load k path id revision => exact Disk.warns_bind (warns_load path id revision fs k) fun _ _ => .pure ()
  | loadStamped k path id revision => exact Disk.warns_bind (warns_loadStamped path id revision fs k) fun _ _ => .pure ()
  | writePayload path payload => exact warns_writePayload path fs payload
  | save k path table => exact warns_writePayload path fs _
  | saveStamped k path table => exact warns_writePayload path fs _

theorem reports_perform {op : Operation} (plain : ∀ k path id revision, op ≠ .loadStamped k path id revision)
    (fs : FileSystem) : (op.perform.attempt fs).ReportsSuccess := by
  cases op with
  | readPayload path id revision => exact Disk.reports_bind_left (reports_readPayload path id revision fs)
  | load k path id revision =>
    exact Disk.reports_bind_left (Disk.reports_bind_left (reports_readPayload path id revision fs))
  | loadStamped k path id revision => exact absurd rfl (plain k path id revision)
  | writePayload path payload => exact reports_writePayload path fs payload
  | save k path table => exact reports_writePayload path fs _
  | saveStamped k path table => exact reports_writePayload path fs _

end Operation

end Store

/-- Detection keeps the rule exactly where it does not refuse a length. -/
theorem warns_detect_iff (id : UInt8) (payload : Bytes) :
    (Lcd.Table.detect id payload).WarnsOfSize ↔
      ¬ ((0x88 ≤ id ∧ id ≤ 0x8a) ∧ payload.length ∉ Lcd.Table.payloadLengths) := by
  have owns : Lcd.Table.ownsId id = true ↔ 0x88 ≤ id ∧ id ≤ 0x8a := Lcd.Table.ownsId_iff id
  have outcome := Lcd.Table.detected id payload
  rw [← owns]
  constructor
  · rintro warns ⟨owned, other⟩
    have refused := outcome.of_refused.2.2.1 owned other
    exact (levels_detect id payload).not_logs (by decide) (warns id 202 payload.length refused)
  · intro sized table expected actual refused
    rw [refused] at outcome
    cases outcome with
    | length owned other => exact absurd ⟨owned, other⟩ sized

theorem warns_ofRecord_iff (record : Bytes) (revision : Revision) :
    (Carrier.Table.ofRecord record revision).WarnsOfSize ↔ record ≠ [] := by
  cases record with
  | nil =>
    constructor
    · intro warns
      obtain ⟨r, logged, -⟩ := warns TableId.carrier Carrier.Table.recordLength 0 rfl
      cases logged
    · intro filled
      exact absurd rfl filled
  | cons tag payload => exact ⟨fun _ => List.cons_ne_nil tag payload, fun _ => warns_ofRecord tag payload revision⟩

theorem Store.reports_loadStamped_iff (k : TableKind) (path : String) (id : UInt8) (revision : Revision)
    (fs : FileSystem) :
    ((loadStamped (T := k.Table) path id revision).attempt fs).ReportsSuccess ↔
      ∀ s, (loadStamped (T := k.Table) path id revision).result fs ≠ .ok s := by
  constructor
  · intro reports s loaded
    exact (levels_loadStamped path id revision fs k).not_logs (by decide) (reports s loaded)
  · intro fails s loaded
    exact absurd loaded (fails s)

/-- **What is logged, and what is not.** A refusal for a wrong length is warned of by the check of the catalog, by
decoding a table of any type and by the conversion of card tables; by detection it is not, so this keeps the rule only
where it refuses no length, and neither is it for a record without a tag. An operation on files warns of it if nothing
else writes the file between the report of its length and the reading, as is taken for granted here; a length that
changed in between is refused without a record. A checksum that does not agree is warned of when a record is taken from
its trailer, and for a stamped file of the right length also if the table is then refused. Every operation on files that
succeeds is reported, but for loads of stamped files, which keep the rule only where they fail. -/
theorem refusals_and_files_logged (k : TableKind) (id : UInt8) (payload : Bytes) (revision : Revision) (path : String)
    (fs : FileSystem) :
    (∀ actual, (Catalog.validate id revision actual).WarnsOfSize) ∧
    (TableType.decode (T := k.Table) payload revision).WarnsOfSize ∧
    (TableType.decodeAs (T := k.Table) id payload revision).WarnsOfSize ∧
    (∀ target, (Card.convertPayload payload revision target).WarnsOfSize) ∧
    ((Lcd.Table.detect id payload).WarnsOfSize ↔
      ¬ ((0x88 ≤ id ∧ id ≤ 0x8a) ∧ payload.length ∉ [802, 402, 202])) ∧
    (∀ record, (Carrier.Table.ofRecord record revision).WarnsOfSize ↔ record ≠ []) ∧
    (∀ op : Store.Operation, (op.perform.attempt fs).WarnsOfSize) ∧
    (∀ seed record s, (Checksum.unstampWith seed record).result = .ok s → s.stored ≠ s.calculated →
      (Checksum.unstampWith seed record).Logs .warn) ∧
    (∀ size bytes, Catalog.expectedSize id revision = .ok size → fs.read path = .ok bytes → bytes.length = size + 2 →
      (Checksum.split 0 bytes).stored ≠ (Checksum.split 0 bytes).calculated →
      ((Store.loadStamped (T := k.Table) path id revision).attempt fs).Logs .warn) ∧
    (∀ op : Store.Operation, (∀ k path id revision, op ≠ .loadStamped k path id revision) →
      (op.perform.attempt fs).ReportsSuccess) ∧
    (((Store.loadStamped (T := k.Table) path id revision).attempt fs).ReportsSuccess ↔
      ∀ s, (Store.loadStamped (T := k.Table) path id revision).result fs ≠ .ok s) := by
  refine ⟨warns_validate id revision, warns_decode k payload revision, warns_decodeAs k id payload revision,
    warns_convertPayload payload revision, warns_detect_iff id payload, fun record => warns_ofRecord_iff record revision,
    fun op => op.warns_perform fs, fun _ _ _ => warns_unstampWith, ?_, fun op plain => op.reports_perform plain fs,
    Store.reports_loadStamped_iff k path id revision fs⟩
  intro size bytes listed stored length differs
  exact Store.warns_loadStamped_checksum k listed stored length differs

/-- Installation parameters in a plain file, which is loaded, and in a stamped one with a wrong checksum; the stamped
file taken for a plain one. -/
theorem refusals_and_files_logged_install :
    let record : Bytes := List.replicate 45 7 ++ [1, 2]
    let fs : FileSystem :=
      { nodes := [(⟨.start 0, ["plain"]⟩, .file (List.replicate 45 7)), (⟨.start 0, ["stamped"]⟩, .file record)] }
    (Checksum.unstampWith 0 record).Logs .warn ∧
    ((Store.loadStamped (T := TableKind.install.Table) "stamped" 0x1f .mtr1).attempt fs).Logs .warn ∧
    ((Store.Operation.load .install "plain" 0x1f .mtr1).perform.attempt fs).Logs .info ∧
    ((Store.Operation.load .install "stamped" 0x1f .mtr1).perform.attempt fs).Logs .warn := by
  intro record fs
  obtain ⟨-, -, -, -, -, -, sizes, checksums, stamped, reports, -⟩ :=
    refusals_and_files_logged .install 0x1f record .mtr1 "stamped" fs
  have differs : (Checksum.split 0 record).stored ≠ (Checksum.split 0 record).calculated := by decide +kernel
  refine ⟨?_, ?_, ?_, ?_⟩
  · exact checksums 0 record _ (Checksum.result_unstampWith 0 (by decide)) differs
  · exact stamped 45 record rfl rfl rfl differs
  · exact reports (.load .install "plain" 0x1f .mtr1) nofun () rfl
  · exact sizes (.load .install "stamped" 0x1f .mtr1) 0x1f 45 47 rfl

/-- A payload of no bytes, a record of no bytes, and a stamped file that is loaded without a report. -/
theorem refusals_and_loads_unlogged :
    ¬ (Lcd.Table.detect 0x88 []).WarnsOfSize ∧ ¬ (Carrier.Table.ofRecord [] .mtr2).WarnsOfSize ∧
    let fs : FileSystem := { nodes := [(⟨.start 0, ["stamped"]⟩, .file (List.replicate 45 7 ++ [1, 2]))] }
    ¬ ((Store.loadStamped (T := TableKind.install.Table) "stamped" 0x1f .mtr1).attempt fs).ReportsSuccess := by
  refine ⟨?_, ?_, ?_⟩
  · intro warns
    exact absurd (warns 0x88 202 0 rfl) (by decide)
  · intro warns
    exact absurd (warns 0x85 1103 0 rfl) (by decide)
  · intro fs reports
    have stored : fs.read "stamped" = .ok (List.replicate 45 7 ++ Bytes.ofWord 0x0201) := rfl
    obtain ⟨table, decoded⟩ : ∃ table : TableKind.install.Table,
        (TableType.decodeAs 0x1f (List.replicate 45 7) .mtr1).result = .ok table := ⟨_, rfl⟩
    exact (Store.reports_loadStamped_iff _ _ _ _ fs).1 reports _ (Store.loadStamped_of_read stored decoded)

end Payphone
