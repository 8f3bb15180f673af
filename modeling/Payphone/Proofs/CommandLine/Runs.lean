import Payphone.Proofs.Card.Chain
import Payphone.Proofs.Carrier.Editing
import Payphone.Proofs.Checksum.Residue
import Payphone.Proofs.CommandLine.Saving
import Payphone.Proofs.Lcd.Detecting

/-!
Runs of commands on files.

Two commands save, and what they have to save is decided by the bytes of their input: a carrier table byte for byte or
with another front (`saves_carrier`), and the conversion of a card table (`saves_convertCard`). From this follows what a
second run does with what the first one saved (`saves_carrier_again`, `saves_convertCard_back`). Of the commands that
only look, one shows a file as it is (`run_lcd_raw`), and one decides by its exit code (`run_checksum_verify`).
-/
namespace Payphone.CommandLine

open Console

/-! Carrier tables. -/

theorem result_load_carrier (files : FileSystem) (path : String) (revision : Revision) :
    (Store.load (T := Carrier.Table) path TableId.carrier revision).result files =
      ((Store.readSized path TableId.carrier Carrier.Table.imageForm.width).result files).map fun payload =>
        Carrier.Table.ofImage (Carrier.Table.imageForm.decode payload) := by
  rw [Store.result_load, Carrier.Table.expectedSize_eq, Except.bind]
  cases h : (Store.readSized path TableId.carrier Carrier.Table.imageForm.width).result files with
  | error e => rfl
  | ok payload =>
    have size : payload.length = (exactCarrier revision).size := (Store.read_of_readSized h).2
    change (decodeOwn TableType.decode TableType.tableId TableId.carrier payload revision).result = _
    rw [result_decodeOwn (exactCarrier revision) (by decide) payload, if_neg (not_not_intro size),
      if_neg (not_not_intro rfl)]
    rfl

namespace CarrierSettings

/-- The table as it is saved and shown. -/
def table (s : CarrierSettings) (loaded : Carrier.Table) : Carrier.Table :=
  if s.provision then loaded.provision else loaded

/-- What is printed of the table. -/
def shown (s : CarrierSettings) (table : Carrier.Table) : String :=
  if s.json then (Export.carrierTable table).render ++ "\n" else table.report

/-- What is saved of a payload. -/
def saves (s : CarrierSettings) (payload : Bytes) : Bytes :=
  if s.provision then Carrier.Table.standardFront ++ payload.drop 339 else payload

theorem encode_table (s : CarrierSettings) {payload : Bytes} (h : payload.length = Carrier.Table.imageForm.width) :
    (s.table (Carrier.Table.ofImage (Carrier.Table.imageForm.decode payload))).encode = s.saves payload := by
  rw [table, saves]
  by_cases provision : s.provision
  · rw [if_pos provision, if_pos provision, Carrier.Table.encode_provision_ofImage h]
  · rw [if_neg provision, if_neg provision, Carrier.Table.encode_decode h]

theorem saves_of_provision {s : CarrierSettings} (h : s.provision = true) (payload : Bytes) :
    s.saves payload = Carrier.Table.standardFront ++ payload.drop 339 := if_pos h

theorem drop_saves (s : CarrierSettings) (payload : Bytes) : (s.saves payload).drop 339 = payload.drop 339 := by
  rw [saves]
  by_cases provision : s.provision
  · rw [if_pos provision, List.drop_left' Carrier.Table.length_standardFront]
  · rw [if_neg provision]

theorem length_saves (s : CarrierSettings) {payload : Bytes} (h : payload.length = Carrier.Table.imageForm.width) :
    (s.saves payload).length = payload.length := by
  rw [← s.encode_table h, Carrier.Table.length_encode, h]

end CarrierSettings

theorem runCarrier_of_output {s : CarrierSettings} {path : String} (h : s.output = some path) :
    runCarrier s = (onDisk (Store.load s.input TableId.carrier s.revision) >>= fun answer =>
      during s!"loading carrier table {s.input}" answer >>= fun loaded =>
      onDisk (Store.writePayload path (s.table loaded).encode) >>= fun answer =>
      during s!"writing {path}" answer >>= fun _ => print (s.shown (s.table loaded))) := by
  unfold runCarrier CarrierSettings.shown
  simp only [h]
  cases s.json <;> rfl

theorem saves_carrier (s : CarrierSettings) {path : String} (h : s.output = some path) (files : FileSystem) :
    (Command.carrier s).Saves files path fun bytes =>
      ∃ payload, Holds files s.input Carrier.Table.imageForm.width payload ∧ bytes = s.saves payload := by
  have steps : (Command.carrier s).execute = _ := runCarrier_of_output h
  have unchanged := Store.readOnly_load (T := Carrier.Table) s.input TableId.carrier s.revision files
  have loaded := result_load_carrier files s.input s.revision
  cases hread : (Store.readSized s.input TableId.carrier Carrier.Table.imageForm.width).result files with
  | error e =>
    rw [hread, Except.map] at loaded
    exact saves_of_unread hread (by rw [steps, run_onDisk_of_error loaded, unchanged])
  | ok payload =>
    rw [hread, Except.map] at loaded
    have holds := readSized_eq_ok_iff.1 hread
    refine saves_of_write (by rw [steps, run_onDisk_of_ok loaded, unchanged]) ?_
    exact ⟨payload, holds, s.encode_table holds.2⟩

section

variable {s : CarrierSettings} {path : String} (output : s.output = some path) (files : FileSystem)
include output

theorem saves_carrier_of_plain (plain : s.provision = false) :
    (Command.carrier s).Saves files path (Holds files s.input Carrier.Table.imageForm.width) := by
  have same (payload : Bytes) : s.saves payload = payload := by
    rw [CarrierSettings.saves, plain]
    rfl
  refine (saves_carrier s output files).weaken ?_ fun bytes holds => ⟨_, bytes, holds, rfl⟩
  rintro bytes ⟨payload, holds, rfl⟩
  rwa [same]

/-- What provisioning writes ends in front of byte 339. -/
theorem saves_carrier_of_provision (provision : s.provision = true) :
    (Command.carrier s).Saves files path fun saved =>
      ∃ bytes, Holds files s.input Carrier.Table.imageForm.width bytes ∧ saved.length = bytes.length ∧
        saved.take 339 = Carrier.Table.standardFront ∧ saved.drop 339 = bytes.drop 339 := by
  refine (saves_carrier s output files).weaken ?_ ?_
  · rintro saved ⟨payload, holds, rfl⟩
    have front : (s.saves payload).take 339 = Carrier.Table.standardFront := by
      rw [CarrierSettings.saves_of_provision provision, List.take_left' Carrier.Table.length_standardFront]
    exact ⟨payload, holds, s.length_saves holds.2, front, s.drop_saves payload⟩
  · rintro - ⟨bytes, holds, -⟩
    exact ⟨_, bytes, holds, rfl⟩

/-- Provisioning what is provisioned saves it as it is. -/
theorem saves_carrier_again (provision : s.provision = true) (ok : ((Command.carrier s).run files).1.exitCode = 0) :
    let after := ((Command.carrier s).run files).2
    ∃ saved, after.read path = .ok saved ∧
      ∀ (again : CarrierSettings) (target : String), again.input = path → again.provision = true →
        again.output = some target →
        (Command.carrier again).Saves after target (· = saved) ∧
          (((Command.carrier again).run after).1.exitCode = 0 ↔ files.Writable target) := by
  intro after
  have first := saves_carrier s output files
  obtain ⟨-, ⟨payload, holds, rfl⟩, stored⟩ := first.read ok
  refine ⟨s.saves payload, stored, ?_⟩
  rintro again target rfl provision' output'
  have holds' : Holds after again.input Carrier.Table.imageForm.width (s.saves payload) :=
    ⟨stored, (s.length_saves holds.2).trans holds.2⟩
  have same : again.saves (s.saves payload) = s.saves payload :=
    calc again.saves (s.saves payload)
        = Carrier.Table.standardFront ++ (s.saves payload).drop 339 :=
          CarrierSettings.saves_of_provision provision' (s.saves payload)
      _ = Carrier.Table.standardFront ++ payload.drop 339 := by rw [s.drop_saves payload]
      _ = s.saves payload := (CarrierSettings.saves_of_provision provision payload).symm
  have second := (saves_carrier again output' after).of_holds holds' fun bytes => by rw [same]
  exact ⟨second, first.exitCode_eq_zero_iff_writable second⟩

end

/-! Card tables. -/

theorem saves_convertCard (s : ConvertSettings) (files : FileSystem) :
    (Command.convertCard s).Saves files s.output fun bytes =>
      ∃ payload, Holds files s.input (Card.layout s.source).tableLength payload ∧
        (Card.convertPayload payload s.source s.target).result = .ok bytes := by
  have steps : (Command.convertCard s).execute = runConvertCard s := rfl
  have unchanged := Store.readOnly_readPayload s.input (Card.tableId s.source) s.source files
  have loaded := Store.result_readPayload s.input (Card.tableId s.source) s.source files
  rw [Card.Table.expectedSize_eq, Except.bind] at loaded
  cases hread : (Store.readSized s.input (Card.tableId s.source) (Card.layout s.source).tableLength).result files with
  | error e =>
    rw [hread] at loaded
    exact saves_of_unread hread (by rw [steps, runConvertCard, run_onDisk_of_error loaded, unchanged])
  | ok payload =>
    rw [hread] at loaded
    have holds := readSized_eq_ok_iff.1 hread
    have converted := Card.result_convertPayload payload s.source s.target
    rw [if_pos holds.2] at converted
    refine saves_of_write (by
      rw [steps, runConvertCard, run_onDisk_of_ok loaded, unchanged, run_ofResult_of_ok converted, printLine]) ?_
    exact ⟨payload, holds, converted⟩

/-- What was converted from MTR 1.x comes back. -/
theorem saves_convertCard_back {s : ConvertSettings} (source : s.source = .mtr1) (target : s.target = .mtr2)
    (files : FileSystem) (ok : ((Command.convertCard s).run files).1.exitCode = 0) :
    let after := ((Command.convertCard s).run files).2
    ∃ bytes, files.read s.input = .ok bytes ∧
      ∀ back : ConvertSettings, back.input = s.output → back.source = .mtr2 → back.target = .mtr1 →
        (Command.convertCard back).Saves after back.output (· = bytes) ∧
          (((Command.convertCard back).run after).1.exitCode = 0 ↔ files.Writable back.output) := by
  intro after
  have first := saves_convertCard s files
  obtain ⟨saved, ⟨bytes, holds, converted⟩, stored⟩ := first.read ok
  rw [source] at holds converted
  rw [target] at converted
  obtain ⟨wide, there, size, restored⟩ := Card.result_convertPayload_back holds.2
  obtain rfl : saved = wide := Except.ok.inj (converted.symm.trans there)
  refine ⟨bytes, holds.1, ?_⟩
  intro back input source' target'
  have holds' : Holds after back.input (Card.layout back.source).tableLength saved := by
    rw [input, source']
    exact ⟨stored, size⟩
  have second := (saves_convertCard back after).of_holds holds' fun other => by
    rw [source', target', restored, Except.ok.injEq, eq_comm]
  exact ⟨second, first.exitCode_eq_zero_iff_writable second⟩

/-! Commands that check a file. -/

/-- What is shown raw is the file itself. -/
theorem run_lcd_raw {s : LcdSettings} (raw : s.raw = true) (files : FileSystem) :
    let outcome := ((Command.lcd s).run files).1
    (outcome.exitCode = 0 ↔
      ∃ bytes t, files.read s.input = .ok bytes ∧ (Lcd.Table.detect s.table bytes).result = .ok t) ∧
    (outcome.exitCode = 0 → ∃ bytes, files.read s.input = .ok bytes ∧ outcome.output = Hex.dump bytes ++ "\n") := by
  have steps : (Command.lcd s).execute.run.run { files } = (runLcd s).run.run { files } := rfl
  cases hread : files.read s.input with
  | error e =>
    rw [runLcd, run_readFile_of_error hread] at steps
    simp [Command.run_of_error steps]
  | ok bytes =>
    rw [runLcd, run_readFile_of_ok hread] at steps
    cases found : (Lcd.Table.detect s.table bytes).result with
    | error e =>
      rw [run_during_of_error found] at steps
      simp [Command.run_of_error steps, found]
    | ok t =>
      obtain ⟨-, -, same, -⟩ := (Lcd.Table.detected s.table bytes).of_ok found
      rw [run_during_of_ok found, if_pos raw, same, printLine, run_print] at steps
      simp [Command.run_of_ok steps, found]

/-- A file is verified exactly if nothing is left of it in the register. -/
theorem run_checksum_verify {s : ChecksumSettings} (verify : s.verify = true) (files : FileSystem) :
    ((Command.checksum s).run files).1.exitCode = 0 ↔
      ∃ bytes, files.read s.input = .ok bytes ∧ 2 ≤ bytes.length ∧ Checksum.crc16 s.seed bytes = 0 := by
  have steps : (Command.checksum s).execute.run.run { files } = (runChecksum s).run.run { files } := rfl
  cases hread : files.read s.input with
  | error e =>
    rw [runChecksum, run_readFile_of_error hread] at steps
    simp [Command.run_of_error steps]
  | ok bytes =>
    rw [runChecksum, run_readFile_of_ok hread, if_pos verify] at steps
    by_cases long : 2 ≤ bytes.length
    · rw [run_ofResult_of_ok (Checksum.result_unstampWith s.seed long), printLine,
        run_bind_of_ok (run_print _ _)] at steps
      by_cases zero : Checksum.crc16 s.seed bytes = 0
      · have checked : (Checksum.split s.seed bytes).check = .ok (Checksum.split s.seed bytes).payload :=
          if_pos ((Checksum.isValid_split_iff s.seed long).2 zero)
        rw [run_ofResult_of_ok checked, printLine, run_print] at steps
        simp [Command.run_of_ok steps, long, zero]
      · have checked : (Checksum.split s.seed bytes).check = .error _ :=
          if_neg fun valid => zero ((Checksum.isValid_split_iff s.seed long).1 valid)
        rw [run_ofResult_of_error checked] at steps
        simp [Command.run_of_error steps, zero]
    · rw [run_ofResult_of_error (Checksum.result_unstampWith_of_short s.seed (Nat.lt_of_not_le long))] at steps
      simp [Command.run_of_error steps, long]

/-! All commands. -/

theorem frame_run (c : Command) (files : FileSystem) :
    Frame c.outputs files (c.run files).2 (c.run files).1.exitCode := by
  by_cases silent : c.outputs = []
  · rw [Command.files_of_looks (looks_execute silent), silent]
    exact .refl (by decide) files _
  · cases c with
    | carrier s =>
      cases output : s.output with
      | none => exact absurd (Option.toList_eq_nil_iff.2 output) silent
      | some path =>
        rw [Command.outputs, output]
        exact (saves_carrier s output files).frame
    | convertCard s => exact (saves_convertCard s files).frame
    | _ => exact absurd rfl silent

/-- **What runs of commands leave in files.** Standard output is taken to accept all that is printed
(`Console.print`), so that no run ends there. A run changes at most the file at its one output, and none if it fails.
A carrier table is saved byte for byte, or provisioned: then all bytes from 339 on stay, and provisioning once more
saves the same. A card table is saved as its conversion, whether its own file is the output or another, and what was
converted from MTR 1.x to MTR 2.x comes back. Raw local call determination is printed as the file it is, and a file is
verified exactly if it is long enough for a checksum and leaves zero in the register. -/
theorem runs_decided (files : FileSystem) :
    (∀ arguments c, Command.ofArguments arguments = .ok c →
      run arguments files = c.run files ∧ Frame c.outputs files (c.run files).2 (c.run files).1.exitCode) ∧
    (∀ (s : CarrierSettings) (path : String), s.output = some path →
      (s.provision = false → (Command.carrier s).Saves files path (Holds files s.input 1102)) ∧
      (s.provision = true →
        ((Command.carrier s).Saves files path fun saved =>
          ∃ bytes, Holds files s.input 1102 bytes ∧ saved.length = bytes.length ∧
            saved.take 339 = Carrier.Table.standardFront ∧ saved.drop 339 = bytes.drop 339) ∧
        (((Command.carrier s).run files).1.exitCode = 0 →
          let after := ((Command.carrier s).run files).2
          ∃ saved, after.read path = .ok saved ∧
            ∀ (again : CarrierSettings) (target : String), again.input = path → again.provision = true →
              again.output = some target →
              (Command.carrier again).Saves after target (· = saved) ∧
                (((Command.carrier again).run after).1.exitCode = 0 ↔ files.Writable target)))) ∧
    (∀ s : ConvertSettings,
      ((Command.convertCard s).Saves files s.output fun saved =>
        ∃ bytes, Holds files s.input (Card.layout s.source).tableLength bytes ∧
          (Card.convertPayload bytes s.source s.target).result = .ok saved) ∧
      (s.source = .mtr1 → s.target = .mtr2 → ((Command.convertCard s).run files).1.exitCode = 0 →
        let after := ((Command.convertCard s).run files).2
        ∃ bytes, files.read s.input = .ok bytes ∧
          ∀ back : ConvertSettings, back.input = s.output → back.source = .mtr2 → back.target = .mtr1 →
            (Command.convertCard back).Saves after back.output (· = bytes) ∧
              (((Command.convertCard back).run after).1.exitCode = 0 ↔ files.Writable back.output))) ∧
    (∀ s : LcdSettings, s.raw = true →
      let outcome := ((Command.lcd s).run files).1
      (outcome.exitCode = 0 ↔
        ∃ bytes t, files.read s.input = .ok bytes ∧ (Lcd.Table.detect s.table bytes).result = .ok t) ∧
      (outcome.exitCode = 0 → ∃ bytes, files.read s.input = .ok bytes ∧ outcome.output = Hex.dump bytes ++ "\n")) ∧
    ∀ s : ChecksumSettings, s.verify = true →
      (((Command.checksum s).run files).1.exitCode = 0 ↔
        ∃ bytes, files.read s.input = .ok bytes ∧ 2 ≤ bytes.length ∧ Checksum.crc16 s.seed bytes = 0) := by
  refine ⟨?_, ?_, ?_, fun s raw => run_lcd_raw raw files, fun s verify => run_checksum_verify verify files⟩
  · intro arguments c parsed
    exact ⟨by rw [run, parsed], frame_run c files⟩
  · intro s path output
    exact ⟨saves_carrier_of_plain output files,
      fun provision => ⟨saves_carrier_of_provision output files provision,
        saves_carrier_again output files provision⟩⟩
  · intro s
    exact ⟨saves_convertCard s files, fun source target => saves_convertCard_back source target files⟩

/-- A carrier table that is provisioned in its own file, twice; a card table of 660 bytes that is converted in its own
file, which then holds 1152 bytes, and back; a table shown raw; and a record verified from a seed. All of these runs
succeed. -/
theorem runs_decided_in_place :
    let carrier : Bytes := List.replicate 1102 7
    let card : Bytes := List.replicate 660 7
    let lcd : Bytes := [0x40, 0x8e] ++ List.replicate 200 0
    let files : FileSystem :=
      { nodes := [(⟨.start 0, ["carrier"]⟩, .file carrier), (⟨.start 0, ["card"]⟩, .file card),
          (⟨.start 0, ["lcd"]⟩, .file lcd), (⟨.start 0, ["record"]⟩, .file [0xff, 0xff])] }
    let provision := ["carrier", "carrier", "--provision", "-o", "carrier"]
    let provisioned := (run provision files).2
    let widen := ["convert-card", "card", "card", "--from=mtr1", "--to", "mtr2"]
    let widened := (run widen files).2
    let narrow := ["convert-card", "card", "card"]
    (∃ saved, saved.take 339 = Carrier.Table.standardFront ∧ saved.drop 339 = carrier.drop 339 ∧
      (run provision files).1.exitCode = 0 ∧ provisioned.read "carrier" = .ok saved ∧
      (run provision provisioned).1.exitCode = 0 ∧ (run provision provisioned).2.read "carrier" = .ok saved) ∧
    (∃ wide, wide.length = 1152 ∧ (run widen files).1.exitCode = 0 ∧ widened.read "card" = .ok wide ∧
      (run narrow widened).1.exitCode = 0 ∧ (run narrow widened).2.read "card" = .ok card) ∧
    ((run ["lcd", "lcd", "--raw"] files).1.exitCode = 0 ∧
      (run ["lcd", "lcd", "--raw"] files).1.output = Hex.dump lcd ++ "\n") ∧
    (run ["checksum", "record", "--verify", "-s0xffff"] files).1.exitCode = 0 := by
  intro carrier card lcd files provision provisioned widen widened narrow
  obtain ⟨parsed, carriers, cards, raw, verified⟩ := runs_decided files
  have writable (path : String) (h : ∃ files', files.write path [] = .ok files') : files.Writable path :=
    (FileSystem.writable_iff []).2 h
  refine ⟨?_, ?_, ?_, ?_⟩
  · let s : CarrierSettings := { input := "carrier", provision := true, output := some "carrier" }
    have holds : Holds files "carrier" 1102 carrier := ⟨by rfl, List.length_replicate⟩
    have first := (parsed provision (.carrier s) rfl).1
    have between : provisioned = (run provision files).2 := rfl
    have second := ((runs_decided provisioned).1 provision (.carrier s) rfl).1
    obtain ⟨behind, again⟩ := (carriers s _ rfl).2 rfl
    rw [Command.Saves, ← first] at behind
    rw [← first] at again
    have size : (Carrier.Table.standardFront ++ carrier.drop 339).length = carrier.length := by
      rw [List.length_append, Carrier.Table.length_standardFront, List.length_drop, List.length_replicate]
    have ok := behind.exitCode_eq_zero_iff.2
      ⟨⟨_, carrier, holds, size, List.take_left' Carrier.Table.length_standardFront,
        List.drop_left' Carrier.Table.length_standardFront⟩, writable "carrier" ⟨_, rfl⟩⟩
    obtain ⟨saved, ⟨bytes, hbytes, -, front, rest⟩, there⟩ := behind.read ok
    obtain rfl : bytes = carrier := Except.ok.inj (hbytes.1.symm.trans holds.1)
    obtain ⟨_, stored, next⟩ := again ok
    obtain rfl := Except.ok.inj (stored.symm.trans there)
    obtain ⟨same, succeeds⟩ := next s _ rfl rfl rfl
    have ok' := succeeds.2 (writable "carrier" ⟨_, rfl⟩)
    obtain ⟨_, rfl, stored'⟩ := same.read ok'
    rw [second, between]
    exact ⟨_, front, rest, ok, stored, ok', stored'⟩
  · let s : ConvertSettings := { input := "card", output := "card", source := .mtr1, target := .mtr2 }
    let inverse : ConvertSettings := { input := "card", output := "card" }
    have holds : Holds files "card" 660 card := ⟨by rfl, List.length_replicate⟩
    have first := (parsed widen (.convertCard s) rfl).1
    have between : widened = (run widen files).2 := rfl
    have second := ((runs_decided widened).1 narrow (.convertCard inverse) rfl).1
    obtain ⟨converted, back⟩ := cards s
    rw [Command.Saves, ← first] at converted
    rw [← first] at back
    obtain ⟨wide, becomes, size, -⟩ := Card.result_convertPayload_back holds.2
    have ok := converted.exitCode_eq_zero_iff.2 ⟨⟨wide, card, holds, becomes⟩, writable "card" ⟨_, rfl⟩⟩
    obtain ⟨saved, ⟨bytes, hbytes, became⟩, there⟩ := converted.read ok
    obtain rfl : bytes = card := Except.ok.inj (hbytes.1.symm.trans holds.1)
    obtain rfl : saved = wide := Except.ok.inj (became.symm.trans becomes)
    obtain ⟨bytes, hread, next⟩ := back rfl rfl ok
    obtain rfl : bytes = card := Except.ok.inj (hread.symm.trans holds.1)
    obtain ⟨same, succeeds⟩ := next inverse rfl rfl rfl
    have ok' := succeeds.2 (writable "card" ⟨_, rfl⟩)
    obtain ⟨_, rfl, stored⟩ := same.read ok'
    rw [second, between]
    exact ⟨_, size, ok, there, ok', stored⟩
  · have size : lcd.length = 202 := by rw [List.length_append, List.length_replicate]; rfl
    have header : Lcd.AreaCode.IsHeader [0x40, 0x8e] := (Lcd.AreaCode.isHeader_iff 0x40 0x8e).2 (by decide)
    obtain ⟨t, found⟩ := (Lcd.Table.detected 0x88 lcd).ok_iff.2 ⟨by decide, by rw [size]; decide, header⟩
    let s : LcdSettings := { input := "lcd", raw := true }
    have shown := (parsed ["lcd", "lcd", "--raw"] (.lcd s) rfl).1
    obtain ⟨accepts, prints⟩ := raw s rfl
    have stored : files.read "lcd" = .ok lcd := by rfl
    have ok := accepts.2 ⟨lcd, t, stored, found⟩
    obtain ⟨bytes, hread, output⟩ := prints ok
    obtain rfl : bytes = lcd := Except.ok.inj (hread.symm.trans stored)
    rw [shown]
    exact ⟨ok, output⟩
  · have checked := (parsed ["checksum", "record", "--verify", "-s0xffff"]
      (.checksum { input := "record", seed := 0xffff, verify := true }) rfl).1
    rw [checked]
    exact (verified { input := "record", seed := 0xffff, verify := true } rfl).2
      ⟨[0xff, 0xff], by rfl, by decide, by decide +kernel⟩

end Payphone.CommandLine
