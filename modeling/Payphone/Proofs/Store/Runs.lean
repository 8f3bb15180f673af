import Payphone.Proofs.Restoring
import Payphone.Proofs.Store.Loading

/-!
Runs of store operations.

This file

1. shows that an operation which only looks leaves all files as they are, and that one which writes changes the file
   at its own path or, if it fails, nothing (`Effect`, `effect_perform`);
2. concludes that a run of any length leaves a file alone that none of its operations writes (`read_run`);
3. shows for a file that holds the payload of a table, plain or stamped, in which revisions the table is loaded
   (`acceptedByLength_load`, `acceptedByLength_loadStamped`), and that a plain file is never taken for a stamped one,
   nor a stamped one for a plain one (`loadStamped_ne_ok`, `load_ne_ok`);
4. puts the three together for tables that were saved some time before (`saved_tables_survive`).
-/
namespace Payphone.Store

/-! Operations. -/

inductive Operation
  | readPayload (path : String) (id : UInt8) (revision : Revision)
  | writePayload (path : String) (payload : Bytes)
  | load (k : TableKind) (path : String) (id : UInt8) (revision : Revision)
  | loadStamped (k : TableKind) (path : String) (id : UInt8) (revision : Revision)
  | save (k : TableKind) (path : String) (table : k.Table)
  | saveStamped (k : TableKind) (path : String) (table : k.Table)

namespace Operation

/-- The operation, whatever it answers with. -/
def perform : Operation → Disk Unit
  | readPayload path id revision => do let _ ← Store.readPayload path id revision
  | writePayload path payload => Store.writePayload path payload
  | load k path id revision => do let _ ← Store.load (T := k.Table) path id revision
  | loadStamped k path id revision => do let _ ← Store.loadStamped (T := k.Table) path id revision
  | save _ path table => Store.save path table
  | saveStamped _ path table => Store.saveStamped path table

/-- The path and the bytes that the operation writes, if it is one that writes. -/
def write? : Operation → Option (String × Bytes)
  | writePayload path payload => some (path, payload)
  | save _ path table => some (path, TableType.encode table)
  | saveStamped _ path table => some (path, Checksum.stamp (TableType.encode table))
  | readPayload .. | load .. | loadStamped .. => none

/-- The operation does not write at the place of the path. -/
def Spares (op : Operation) (path : String) : Prop := ∀ w ∈ op.write?, Path.placeOf? w.1 ≠ Path.placeOf? path

end Operation

/-- What an operation may answer, and the files that it may leave. -/
inductive Effect (op : Operation) (fs : FileSystem) : Except TableError Unit → FileSystem → Prop
  | looked (h : op.write? = none) (answer : Except TableError Unit) : Effect op fs answer fs
  | failed {path : String} {bytes : Bytes} (h : op.write? = some (path, bytes)) (e : TableError) :
    Effect op fs (.error e) fs
  /-- The whole file is replaced, and nothing changes at another place or path. -/
  | written {path : String} {bytes : Bytes} {fs' : FileSystem} (h : op.write? = some (path, bytes))
      (stored : fs'.read path = .ok bytes)
      (places : ∀ l, Path.placeOf? path ≠ some l → fs'.node? l = fs.node? l)
      (paths : ∀ other, Path.placeOf? other ≠ Path.placeOf? path →
        (fs'.read other).toOption = (fs.read other).toOption) :
    Effect op fs (.ok ()) fs'

variable {fs : FileSystem} {path : String}

theorem writePayload_of_ok {payload : Bytes} {fs' : FileSystem} (h : fs.write path payload = .ok fs') :
    (writePayload path payload).result fs = .ok () ∧ (writePayload path payload).files fs = fs' := by
  obtain ⟨answer, left⟩ := Disk.write_of_ok h
  constructor
  · rw [writePayload, Disk.result_bind, answer]
    rfl
  · rw [writePayload, Disk.files_bind_of_ok answer, left]
    rfl

theorem writePayload_of_error {payload : Bytes} {e : FileError} (h : fs.write path payload = .error e) :
    (writePayload path payload).result fs = .error (Disk.ofFileError e) ∧
      (writePayload path payload).files fs = fs := by
  obtain ⟨answer, left⟩ := Disk.write_of_error h
  constructor
  · rw [writePayload, Disk.result_bind, answer]
    rfl
  · rw [writePayload, Disk.files_bind_of_error answer, left]

/-- What was written is there. -/
theorem read_of_writePayload {payload : Bytes} (h : (writePayload path payload).result fs = .ok ()) :
    ((writePayload path payload).files fs).read path = .ok payload := by
  cases hw : fs.write path payload with
  | error e =>
    rw [(writePayload_of_error hw).1] at h
    cases h
  | ok fs' =>
    rw [(writePayload_of_ok hw).2]
    exact FileSystem.read_write hw

theorem effect_writePayload {op : Operation} {bytes : Bytes} (h : op.write? = some (path, bytes)) (fs : FileSystem) :
    Effect op fs ((writePayload path bytes).result fs) ((writePayload path bytes).files fs) := by
  cases hw : fs.write path bytes with
  | error e =>
    obtain ⟨answer, left⟩ := writePayload_of_error hw
    rw [answer, left]
    exact .failed h _
  | ok fs' =>
    obtain ⟨answer, left⟩ := writePayload_of_ok hw
    obtain ⟨place, hplace, elsewhere, -⟩ := FileSystem.write_frame hw
    rw [answer, left]
    refine .written h (FileSystem.read_write hw) ?_ fun other hne => FileSystem.read_write_of_ne hw hne
    intro l hl
    exact elsewhere l fun same => hl (by rw [hplace, same])

theorem effect_of_readOnly (op : Operation) (h : op.write? = none) (hx : Disk.ReadOnly op.perform) (fs : FileSystem) :
    Effect op fs (op.perform.result fs) (op.perform.files fs) := by
  rw [hx fs]
  exact .looked h _

theorem effect_perform (op : Operation) (fs : FileSystem) :
    Effect op fs (op.perform.result fs) (op.perform.files fs) := by
  cases op with
  | readPayload path id revision =>
    exact effect_of_readOnly (.readPayload path id revision) rfl
      ((readOnly_readPayload path id revision).bind fun _ => .pure ()) fs
  | load k path id revision =>
    exact effect_of_readOnly (.load k path id revision) rfl
      ((readOnly_load path id revision).bind fun _ => .pure ()) fs
  | loadStamped k path id revision =>
    exact effect_of_readOnly (.loadStamped k path id revision) rfl
      ((readOnly_loadStamped path id revision).bind fun _ => .pure ()) fs
  | writePayload path payload => exact effect_writePayload rfl fs
  | save k path table => exact effect_writePayload rfl fs
  | saveStamped k path table => exact effect_writePayload rfl fs

/-! Runs. -/

/-- The files after the operations, of which some may fail. -/
def run (ops : List Operation) (fs : FileSystem) : FileSystem := ops.foldl (fun fs op => op.perform.files fs) fs

/-- One operation keeps a file that it does not write. -/
theorem read_perform {op : Operation} (h : op.Spares path) (fs : FileSystem) :
    ((op.perform.files fs).read path).toOption = (fs.read path).toOption := by
  have effect := effect_perform op fs
  generalize op.perform.result fs = answer at effect
  generalize op.perform.files fs = fs' at effect
  cases effect with
  | looked => rfl
  | failed => rfl
  | written hw stored places paths => exact paths path fun same => h _ hw same.symm

/-- **A run keeps a file that it does not write.** -/
theorem read_run {ops : List Operation} (h : ∀ op ∈ ops, op.Spares path) (fs : FileSystem) :
    ((run ops fs).read path).toOption = (fs.read path).toOption := by
  induction ops generalizing fs with
  | nil => rfl
  | cons op ops ih =>
    calc ((run (op :: ops) fs).read path).toOption
      _ = ((op.perform.files fs).read path).toOption := ih (fun later hl => h later (List.mem_cons_of_mem op hl)) _
      _ = (fs.read path).toOption := read_perform (h op List.mem_cons_self) fs

theorem read_run_of_read {ops : List Operation} (h : ∀ op ∈ ops, op.Spares path) {bytes : Bytes}
    (stored : fs.read path = .ok bytes) : (run ops fs).read path = .ok bytes :=
  toOption_eq_some.1 ((read_run h fs).trans (toOption_eq_some.2 stored))

/-! Loading what was saved. -/

variable {k : TableKind} {t : k.Table}

/-- How loads of a table answer, revision by revision, if its payload and a trailer of so many bytes are all that is in
the file. -/
structure AcceptedByLength (t : k.Table) (trailer : Nat) {α : Type} (loaded : α)
    (answer : Revision → Except TableError α) : Prop where
  /-- The table is loaded exactly where the catalog gives the length of its payload. -/
  accepted (revision : Revision) : answer revision = .ok loaded ↔
    Catalog.expectedSize (TableType.tableId t) revision = .ok (TableType.encode t).length
  /-- Where the catalog gives another length, the two are reported. -/
  size {revision : Revision} {size : Nat} (listed : Catalog.expectedSize (TableType.tableId t) revision = .ok size)
    (differs : size ≠ (TableType.encode t).length) : answer revision =
      .error (.sizeMismatch (TableType.tableId t) (size + trailer) ((TableType.encode t).length + trailer))
  /-- Where the catalog gives none, the table is not one of the revision. -/
  revision {revision : Revision} {e : TableError}
    (unlisted : Catalog.expectedSize (TableType.tableId t) revision = .error e) :
    answer revision = .error (.unsupportedRevision (TableType.tableId t) revision)

/-- Loads that look for the length first, and give `loaded` where it is right, answer so. -/
theorem acceptedByLength_of_answer (listed : Catalog.Lists (TableType.tableId t)) {trailer : Nat} {α : Type}
    {loaded : α} {answer decoded : Revision → Except TableError α}
    (restored : ∀ revision, Catalog.expectedSize (TableType.tableId t) revision = .ok (TableType.encode t).length →
      decoded revision = .ok loaded)
    (h : ∀ revision, answer revision = (Catalog.expectedSize (TableType.tableId t) revision).bind fun size =>
      if (TableType.encode t).length = size then decoded revision
      else .error (.sizeMismatch (TableType.tableId t) (size + trailer) ((TableType.encode t).length + trailer))) :
    AcceptedByLength t trailer loaded answer := by
  refine ⟨fun revision => ?_, fun {revision size} hsize differs => ?_, fun {revision e} unlisted => ?_⟩
  · rw [h revision]
    cases hsize : Catalog.expectedSize (TableType.tableId t) revision with
    | error e => simp [Except.bind]
    | ok size =>
      by_cases same : (TableType.encode t).length = size
      · have ok := restored revision (by rw [hsize, same])
        simp [same, ok, Except.bind]
      · have differs : size ≠ (TableType.encode t).length := Ne.symm same
        simp [same, differs, Except.bind]
  · rw [h revision, hsize]
    exact if_neg (Ne.symm differs)
  · rw [h revision]
    rcases Catalog.expectedSize_cases (TableType.tableId t) revision with
      ⟨notListed, -⟩ | ⟨info, -, -, -, hsize⟩ | ⟨size, hsize⟩
    · exact absurd listed notListed
    · rw [hsize]
      rfl
    · rw [hsize] at unlisted
      cases unlisted

theorem acceptedByLength_load (h : k.Restorable t) (stored : fs.read path = .ok (TableType.encode t)) :
    AcceptedByLength t 0 t fun revision => (load path (TableType.tableId t) revision).result fs :=
  acceptedByLength_of_answer (TableKind.lists_of_restorable h) (fun _ size => TableKind.decodeAs_encode h size)
    fun _ => result_load_of_read stored

/-- A table with the checksum of its payload, twice. -/
def stamped (t : k.Table) : StampedTable k.Table :=
  let checksum := Checksum.crc16 0 (TableType.encode t)
  ⟨t, checksum, checksum⟩

theorem verified_stamped (t : k.Table) : (stamped t).verified = .ok t := by
  simp [stamped, StampedTable.verified, StampedTable.isValid]

theorem acceptedByLength_loadStamped (h : k.Restorable t)
    (stored : fs.read path = .ok (Checksum.stamp (TableType.encode t))) :
    AcceptedByLength t 2 (stamped t) fun revision => (loadStamped path (TableType.tableId t) revision).result fs := by
  refine acceptedByLength_of_answer (TableKind.lists_of_restorable h) (fun revision size => ?_)
    fun _ => result_loadStamped_of_read stored
  rw [TableKind.decodeAs_encode h size]
  rfl

/-- What was saved without a checksum is not loaded as stamped. -/
theorem loadStamped_ne_ok (stored : fs.read path = .ok (TableType.encode t)) {other : TableKind} {id : UInt8}
    {revision : Revision} (s : StampedTable other.Table) : (loadStamped path id revision).result fs ≠ .ok s := by
  intro loaded
  have same : TableType.encode t = TableType.encode s.table ++ Bytes.ofWord s.stored :=
    Except.ok.inj (stored.symm.trans (read_of_loadStamped loaded).1)
  refine TableKind.add_trailer_not_mem (TableKind.length_encode_mem other s.table) ?_
  have length := congrArg List.length same
  rw [List.length_append, Bytes.length_ofWord] at length
  exact length ▸ TableKind.length_encode_mem k t

/-- What was saved with a checksum is not loaded without one. -/
theorem load_ne_ok (stored : fs.read path = .ok (Checksum.stamp (TableType.encode t))) {other : TableKind} {id : UInt8}
    {revision : Revision} (u : other.Table) : (load path id revision).result fs ≠ .ok u := by
  intro loaded
  have same : Checksum.stamp (TableType.encode t) = TableType.encode u :=
    Except.ok.inj (stored.symm.trans (read_of_load loaded).1)
  refine TableKind.add_trailer_not_mem (TableKind.length_encode_mem k t) ?_
  have length := congrArg List.length same
  rw [Checksum.stamp, Checksum.stampWith, List.length_append, Bytes.length_ofWord] at length
  exact length ▸ TableKind.length_encode_mem other u

/-- No revision has tables of local call determination that are not packed. -/
theorem refused_of_uncompressed {t : Lcd.Table} (reached : Lcd.Table.Reachable t) (h : t.packing = .uncompressed)
    {trailer : Nat} {α : Type} {loaded : α} {answer : Revision → Except TableError α}
    (accepted : AcceptedByLength (k := .lcd) t trailer loaded answer) (revision : Revision) : answer revision =
      .error (.sizeMismatch t.tableId ((Lcd.Packing.ofRevision revision).payloadLength + trailer) (802 + trailer)) := by
  have listed := Lcd.Table.expectedSize_of_ownsId reached.wellFormed.owned revision
  have length : t.encode.length = 802 := by
    rw [Lcd.Table.length_encode, h]
    rfl
  have differs : (Lcd.Packing.ofRevision revision).payloadLength ≠ t.encode.length := by
    rw [length]
    cases revision <;> decide
  rw [← length]
  exact accepted.size listed differs

/-- **What was saved is loaded, whatever is done elsewhere in between.** Operations that look change no file, and one
that writes changes its own or none. So a table that its payload gives back, and every table of local call
determination that edits can reach, is loaded after any run that does not write at its path: in exactly the revisions
whose payloads have its length, and in the others the length or the revision is refused. The same holds of a table
saved with a checksum, which then is verified. A file saved in one way is never loaded in the other. -/
theorem saved_tables_survive {path : String} {ops : List Operation} (spared : ∀ op ∈ ops, op.Spares path)
    (fs : FileSystem) :
    (∀ op fs, Effect op fs (op.perform.result fs) (op.perform.files fs)) ∧
    ((run ops fs).read path).toOption = (fs.read path).toOption ∧
    (∀ (k : TableKind) (t : k.Table), (save path t).result fs = .ok () →
      let kept := run ops ((save path t).files fs)
      (k.Restorable t →
        AcceptedByLength t 0 t fun revision => (load path (TableType.tableId t) revision).result kept) ∧
      ∀ (other : TableKind) (id : UInt8) (revision : Revision) (s : StampedTable other.Table),
        (loadStamped path id revision).result kept ≠ .ok s) ∧
    (∀ (k : TableKind) (t : k.Table), (saveStamped path t).result fs = .ok () →
      let kept := run ops ((saveStamped path t).files fs)
      (k.Restorable t → ∃ s : StampedTable k.Table, s.verified = .ok t ∧
        AcceptedByLength t 2 s fun revision => (loadStamped path (TableType.tableId t) revision).result kept) ∧
      ∀ (other : TableKind) (id : UInt8) (revision : Revision) (u : other.Table),
        (load path id revision).result kept ≠ .ok u) ∧
    ∀ t : Lcd.Table, Lcd.Table.Reachable t → t.packing = .uncompressed → ∀ revision,
      ((save path t).result fs = .ok () →
        (load (T := Lcd.Table) path t.tableId revision).result (run ops ((save path t).files fs)) =
          .error (.sizeMismatch t.tableId (Lcd.Packing.ofRevision revision).payloadLength 802)) ∧
      ((saveStamped path t).result fs = .ok () →
        (loadStamped (T := Lcd.Table) path t.tableId revision).result (run ops ((saveStamped path t).files fs)) =
          .error (.sizeMismatch t.tableId ((Lcd.Packing.ofRevision revision).payloadLength + 2) 804)) := by
  -- what a save wrote is still there after the run
  have plain {k : TableKind} {t : k.Table} (saved : (save path t).result fs = .ok ()) :
      (run ops ((save path t).files fs)).read path = .ok (TableType.encode t) :=
    read_run_of_read spared (read_of_writePayload saved)
  have stamp {k : TableKind} {t : k.Table} (saved : (saveStamped path t).result fs = .ok ()) :
      (run ops ((saveStamped path t).files fs)).read path = .ok (Checksum.stamp (TableType.encode t)) :=
    read_run_of_read spared (read_of_writePayload saved)
  refine ⟨effect_perform, read_run spared fs, fun k t saved => ⟨fun h => acceptedByLength_load h (plain saved), ?_⟩,
    fun k t saved => ⟨fun h => ⟨stamped t, verified_stamped t, acceptedByLength_loadStamped h (stamp saved)⟩, ?_⟩, ?_⟩
  · intro other id revision s
    exact loadStamped_ne_ok (plain saved) s
  · intro other id revision u
    exact load_ne_ok (stamp saved) u
  · intro t reached uncompressed revision
    have restorable : TableKind.lcd.Restorable t := .inr reached
    refine ⟨fun saved => ?_, fun saved => ?_⟩
    · have stored := plain (k := .lcd) saved
      exact refused_of_uncompressed reached uncompressed (acceptedByLength_load restorable stored) revision
    · have stored := stamp (k := .lcd) saved
      exact refused_of_uncompressed reached uncompressed (acceptedByLength_loadStamped restorable stored) revision

/-- A table in the packing of MTR 2.x: saved, loaded under another revision, and loaded again after another file was
saved and a write behind it failed. -/
theorem saved_tables_survive_elsewhere :
    let t : Lcd.Table := ⟨0x89, 408, .doubleCompressed, Vector.replicate Lcd.exchangeCount 0⟩
    let ops : List Operation :=
      [.load .lcd "lcd.bin" 0x89 .mtr1, .save .install "other.bin" ({} : Install.Parameters),
       .writePayload "lcd.bin/x" [1]]
    (∀ op ∈ ops, op.Spares "lcd.bin") ∧ Lcd.Table.Reachable t ∧ (save "lcd.bin" t).result {} = .ok () ∧
      (load "lcd.bin" 0x89 .mtr2).result (run ops ((save "lcd.bin" t).files {})) = .ok t := by
  intro t ops
  have spared : ∀ op ∈ ops, op.Spares "lcd.bin" := by
    intro op hop w hw
    simp only [ops, List.mem_cons, List.not_mem_nil, or_false] at hop
    rcases hop with rfl | rfl | rfl
    · cases hw
    · cases hw
      decide
    · cases hw
      decide
  have made : Lcd.Table.new 0x89 408 .doubleCompressed = .ok t := rfl
  have saved : (save "lcd.bin" t).result {} = .ok () := rfl
  have listed := Lcd.Table.expectedSize_of_ownsId (by decide : Lcd.Table.ownsId t.tableId = true) .mtr2
  have size : Catalog.expectedSize t.tableId .mtr2 = .ok t.encode.length :=
    listed.trans (congrArg Except.ok (Lcd.Table.length_encode t).symm)
  have survives := ((saved_tables_survive spared {}).2.2.1 .lcd t saved).1 (.inr (.new made))
  exact ⟨spared, .new made, saved, (survives.accepted .mtr2).2 size⟩

end Payphone.Store
