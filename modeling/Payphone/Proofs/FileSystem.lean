import Payphone.Attempt
import Payphone.FileSystem

/-!
Files by their paths.

1. What is read at a path has the length that is reported there (`length_of_read`). Where a length is reported and
   nothing is read, there is a folder (`read_cases_of_length`).
2. Where a path leads is decided by its steps alone (`Path.place`); the files decide whether it can be followed
   (`locate_eq_place`, `destination_eq_place`).
3. A write makes no folder and takes none away (`write_frame`), so paths that could be followed still can, and the files
   at all other places are read as before (`read_write_of_ne`).
4. For the same reason the paths that can be written stay the same (`writable_write_iff`).
-/
namespace Payphone

/-- The place that the path leads to if all its steps can be taken. -/
def Path.place (p : Path) : Location := p.steps.foldl Location.follow p.origin

/-- The place of the path that a text describes, if it describes one. -/
def Path.placeOf? (text : String) : Option Location := (Path.parse text).toOption.map Path.place

namespace FileSystem

variable {fs : FileSystem} {path : String}

/-- The place that the path leads to, if it can be followed. -/
def reach (fs : FileSystem) (path : String) : Except FileError Location := do
  fs.locate (← Path.parse path)

/-- What reading gives of what is at a place. -/
def bytesAt (fs : FileSystem) (l : Location) : Except FileError Bytes :=
  match fs.node? l with
  | some (.file bytes) => .ok bytes
  | some .folder => .error .isFolder
  | none => .error .notFound

/-- The length that is reported for what is at a place. -/
def lengthAt (fs : FileSystem) (l : Location) : Except FileError Nat :=
  match fs.node? l with
  | some (.file bytes) => .ok bytes.length
  | some .folder => .ok (fs.folderLength l)
  | none => .error .notFound

theorem read_eq (fs : FileSystem) (path : String) : fs.read path = (fs.reach path).bind fs.bytesAt := by
  unfold read reach
  cases Path.parse path <;> rfl

theorem length_eq (fs : FileSystem) (path : String) : fs.length path = (fs.reach path).bind fs.lengthAt := by
  unfold length reach
  cases Path.parse path <;> rfl

theorem bytesAt_eq_ok_iff {l : Location} {bytes : Bytes} :
    fs.bytesAt l = .ok bytes ↔ fs.node? l = some (.file bytes) := by
  unfold bytesAt
  split <;> simp_all

theorem length_of_read {bytes : Bytes} (h : fs.read path = .ok bytes) : fs.length path = .ok bytes.length := by
  rw [read_eq] at h
  obtain ⟨l, reached, hbytes⟩ := bind_eq_ok.1 h
  rw [length_eq, reached, Except.bind, lengthAt, bytesAt_eq_ok_iff.1 hbytes]

/-- Where a length is reported, there is a file that has it, or a folder. -/
theorem read_cases_of_length {n : Nat} (h : fs.length path = .ok n) :
    (∃ bytes, fs.read path = .ok bytes ∧ bytes.length = n) ∨ fs.read path = .error .isFolder := by
  rw [length_eq] at h
  obtain ⟨l, reached, hlength⟩ := bind_eq_ok.1 h
  rw [read_eq, reached, Except.bind, bytesAt]
  cases there : fs.node? l with
  | none =>
    rw [lengthAt, there] at hlength
    cases hlength
  | some node =>
    cases node with
    | folder => exact .inr rfl
    | file bytes =>
      rw [lengthAt, there] at hlength
      exact .inl ⟨bytes, rfl, Except.ok.inj hlength⟩

/-! Places. -/

theorem followAll_eq_foldl (steps : List Path.Step) :
    ∀ {l l' : Location}, fs.followAll l steps = .ok l' → l' = steps.foldl Location.follow l := by
  unfold followAll
  induction steps with
  | nil =>
    intro l l' h
    exact (Except.ok.inj h).symm
  | cons step rest ih =>
    intro l l' h
    rw [List.foldlM_cons] at h
    obtain ⟨next, hs, hrest⟩ := bind_eq_ok.1 h
    obtain ⟨-, -, rfl⟩ := follow_eq_ok_iff.1 hs
    exact ih hrest

/-- A path leads to a place if its steps can be taken and the folder is there that it demands. -/
theorem locate_eq_ok_iff {p : Path} {l : Location} : fs.locate p = .ok l ↔
    fs.followAll p.origin p.steps = .ok l ∧ (p.endsInSlash = true → fs.node? l = some .folder) := by
  unfold locate
  cases ha : fs.followAll p.origin p.steps with
  | error e => simp [bind, Except.bind]
  | ok place =>
    cases hslash : p.endsInSlash
    · simp [bind, Except.bind, pure, Except.pure]
    · rw [← enter_eq_ok_iff]
      cases he : fs.enter place with
      | error e =>
        have refused : place = l → fs.enter l ≠ .ok () := by
          rintro rfl
          simp [he]
        simpa [he, bind, Except.bind] using refused
      | ok _ =>
        simp only [he, bind, Except.bind, pure, Except.pure, Except.ok.injEq, if_true, forall_const]
        exact ⟨fun same => ⟨same, same ▸ he⟩, And.left⟩

theorem locate_eq_place {p : Path} {l : Location} (h : fs.locate p = .ok l) : l = p.place :=
  followAll_eq_foldl p.steps (locate_eq_ok_iff.1 h).1

theorem destination_eq_place {p : Path} {l : Location} (h : fs.destination p = .ok l) : l = p.place :=
  locate_eq_place (locate_put [] h)

/-- A path that could be followed still can where no folder is missing. -/
theorem locate_of_foldersIn {fs' : FileSystem} (hin : FoldersIn fs fs') {p : Path} {l : Location}
    (h : fs.locate p = .ok l) : fs'.locate p = .ok l := by
  obtain ⟨followed, demanded⟩ := locate_eq_ok_iff.1 h
  exact locate_eq_ok_iff.2 ⟨followAll_of_foldersIn hin p.steps followed, fun hslash => hin l (demanded hslash)⟩

theorem reach_eq_ok_iff {l : Location} :
    fs.reach path = .ok l ↔ ∃ p, Path.parse path = .ok p ∧ fs.locate p = .ok p.place ∧ p.place = l := by
  constructor
  · intro h
    obtain ⟨p, hp, hl⟩ := bind_eq_ok.1 h
    obtain rfl := locate_eq_place hl
    exact ⟨p, hp, hl, rfl⟩
  · rintro ⟨p, hp, hl, rfl⟩
    exact bind_eq_ok.2 ⟨p, hp, hl⟩

/-- A file is read exactly if its path can be followed and it is at the end. -/
theorem read_eq_ok_iff {bytes : Bytes} : fs.read path = .ok bytes ↔
    ∃ p, Path.parse path = .ok p ∧ fs.locate p = .ok p.place ∧ fs.node? p.place = some (.file bytes) := by
  rw [read_eq, bind_eq_ok]
  constructor
  · rintro ⟨l, reached, hbytes⟩
    obtain ⟨p, hp, hl, rfl⟩ := reach_eq_ok_iff.1 reached
    exact ⟨p, hp, hl, bytesAt_eq_ok_iff.1 hbytes⟩
  · rintro ⟨p, hp, hl, there⟩
    exact ⟨p.place, reach_eq_ok_iff.2 ⟨p, hp, hl, rfl⟩, bytesAt_eq_ok_iff.2 there⟩

/-! What a write leaves alone. -/

/-- A file that is put anywhere adds no folder. -/
theorem foldersIn_of_put (l : Location) (bytes : Bytes) (h : l.names ≠ []) : FoldersIn (fs.put l bytes) fs := by
  intro other hother
  by_cases same : other = l
  · rw [same, node?_put_self fs bytes h] at hother
    cases hother
  · rwa [node?_put_of_ne fs bytes same] at hother

variable {fs' : FileSystem} {bytes : Bytes}

/-- A write changes nothing but what is at its own place, which it has. -/
theorem write_frame (h : fs.write path bytes = .ok fs') :
    ∃ place, Path.placeOf? path = some place ∧ (∀ l, l ≠ place → fs'.node? l = fs.node? l) ∧
      FoldersIn fs fs' ∧ FoldersIn fs' fs := by
  obtain ⟨p, l, hp, hd, rfl⟩ := write_eq_ok_iff.1 h
  obtain ⟨-, -, -, -, -, -, hn⟩ := exists_of_destination hd
  refine ⟨l, ?_, fun other hne => node?_put_of_ne fs bytes hne, foldersIn_put bytes hn,
    foldersIn_of_put l bytes (names_ne_nil_of_node? hn)⟩
  rw [Path.placeOf?, hp, destination_eq_place hd]
  rfl

/-- The same files are read under two states that have the same folders and the same at the place of the path. -/
theorem read_of_same (hin : FoldersIn fs fs') (same : ∀ l, Path.placeOf? path = some l → fs'.node? l = fs.node? l)
    (h : fs.read path = .ok bytes) : fs'.read path = .ok bytes := by
  obtain ⟨p, hp, hl, hn⟩ := read_eq_ok_iff.1 h
  have hplace : Path.placeOf? path = some p.place := by
    rw [Path.placeOf?, hp]
    rfl
  exact read_eq_ok_iff.2 ⟨p, hp, locate_of_foldersIn hin hl, (same _ hplace).trans hn⟩

/-- **A write leaves all other files alone.** A path to another place has the same file at its end, or none before and
after. -/
theorem read_write_of_ne {other : String} (h : fs.write path bytes = .ok fs')
    (hne : Path.placeOf? other ≠ Path.placeOf? path) : (fs'.read other).toOption = (fs.read other).toOption := by
  obtain ⟨place, hplace, elsewhere, hin, hin'⟩ := write_frame h
  have same : ∀ l, Path.placeOf? other = some l → fs'.node? l = fs.node? l := by
    intro l hl
    refine elsewhere l fun e => hne ?_
    rw [hl, hplace, e]
  apply Option.ext
  intro stored
  rw [toOption_eq_some, toOption_eq_some]
  constructor
  · exact read_of_same hin' fun l hl => (same l hl).symm
  · exact read_of_same hin same

/-! Paths that can be written. -/

/-- A file can be written at the path: it ends in a name where no folder is, and the way there can be followed. -/
def Writable (fs : FileSystem) (path : String) : Prop :=
  ∃ p l, Path.parse path = .ok p ∧ fs.destination p = .ok l

/-- What is written does not matter. -/
theorem writable_iff (bytes : Bytes) : fs.Writable path ↔ ∃ fs', fs.write path bytes = .ok fs' := by
  simp only [write_eq_ok_iff]
  constructor
  · rintro ⟨p, l, hp, hd⟩
    exact ⟨_, p, l, hp, hd, rfl⟩
  · rintro ⟨-, p, l, hp, hd, -⟩
    exact ⟨p, l, hp, hd⟩

theorem destination_of_foldersIn (hin : FoldersIn fs fs') (hin' : FoldersIn fs' fs) {p : Path} {l : Location}
    (h : fs.destination p = .ok l) : fs'.destination p = .ok l := by
  obtain ⟨above, name, ha, hlast, hslash, hf, hn⟩ := exists_of_destination h
  have hn' : fs'.node? l ≠ some .folder := fun folder => hn (hin' l folder)
  simp only [destination, followAll_of_foldersIn hin _ ha, hlast, hslash, follow_of_foldersIn hin hf, if_neg hn', bind,
    Except.bind, pure, Except.pure]

/-- A write makes no path writable and none unwritable. -/
theorem writable_write_iff {other : String} (h : fs.write path bytes = .ok fs') :
    fs'.Writable other ↔ fs.Writable other := by
  obtain ⟨-, -, -, hin, hin'⟩ := write_frame h
  constructor
  · rintro ⟨p, l, hp, hd⟩
    exact ⟨p, l, hp, destination_of_foldersIn hin' hin hd⟩
  · rintro ⟨p, l, hp, hd⟩
    exact ⟨p, l, hp, destination_of_foldersIn hin hin' hd⟩

end FileSystem

end Payphone
