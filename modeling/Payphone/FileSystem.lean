import Payphone.Path

/-!
Files and folders by place.

A path is followed step by step, and each step needs a folder to be taken in: the first that has none decides what is
wrong with the path. A write replaces a whole file or adds one to a folder that exists, or it fails and changes
nothing. What was written is what is read at the same path (`read_write`), and no other place changes
(`node?_put_of_ne`). Folders report a length too, and it may be any number, so a length alone does not tell a file from
a folder.
-/
namespace Payphone

inductive Node
  | folder
  | file (bytes : Bytes)
deriving Repr, DecidableEq

structure FileSystem where
  /-- The first entry of a place counts. -/
  nodes : List (Location × Node) := []
  /-- What a folder at the place reports as its length. Where nobody asked, it is what a small one takes on most
  disks. -/
  folderLength : Location → Nat := fun _ => 4096
deriving Inhabited

namespace FileSystem

/-- What is at a place. The origins of places always are folders. -/
def node? (fs : FileSystem) (l : Location) : Option Node :=
  if l.names.isEmpty then some .folder else (fs.nodes.find? fun entry => entry.1 == l).map Prod.snd

/-! Following paths. -/

/-- Succeeds if a step can be taken at the place. -/
def enter (fs : FileSystem) (l : Location) : Except FileError Unit :=
  match fs.node? l with
  | some .folder => .ok ()
  | some (.file _) => .error .notFolder
  | none => .error .notFound

def follow (fs : FileSystem) (l : Location) (step : Path.Step) : Except FileError Location := do
  fs.enter l
  if step.isTooLong then throw .nameTooLong
  return l.follow step

def followAll (fs : FileSystem) (l : Location) (steps : List Path.Step) : Except FileError Location :=
  steps.foldlM fs.follow l

/-- The place that a path leads to, which may be empty. -/
def locate (fs : FileSystem) (p : Path) : Except FileError Location := do
  let l ← fs.followAll p.origin p.steps
  if p.endsInSlash then fs.enter l
  return l

/-- The place where a file of the path is written: it has a name of its own and is no folder. -/
def destination (fs : FileSystem) (p : Path) : Except FileError Location := do
  let above ← fs.followAll p.origin p.steps.dropLast
  match p.steps.getLast?, p.endsInSlash with
  | some (.enter name), false =>
    let l ← fs.follow above (.enter name)
    if fs.node? l = some .folder then throw .isFolder
    return l
  | _, _ =>
    fs.enter above
    throw .isFolder

/-! Reading and writing. -/

/-- The bytes of a file. -/
def read (fs : FileSystem) (path : String) : Except FileError Bytes := do
  match fs.node? (← fs.locate (← Path.parse path)) with
  | some (.file bytes) => return bytes
  | some .folder => throw .isFolder
  | none => throw .notFound

/-- The length that a file or folder reports. -/
def length (fs : FileSystem) (path : String) : Except FileError Nat := do
  let l ← fs.locate (← Path.parse path)
  match fs.node? l with
  | some (.file bytes) => return bytes.length
  | some .folder => return fs.folderLength l
  | none => throw .notFound

/-- The files with one of them replaced or added. -/
def put (fs : FileSystem) (l : Location) (bytes : Bytes) : FileSystem :=
  { fs with nodes := (l, .file bytes) :: fs.nodes.filter fun entry => entry.1 != l }

def write (fs : FileSystem) (path : String) (bytes : Bytes) : Except FileError FileSystem := do
  return fs.put (← fs.destination (← Path.parse path)) bytes

/-- The files that another state does not have with the same bytes. -/
def changesSince (fs before : FileSystem) : List (Location × Bytes) :=
  fs.nodes.filterMap fun (l, node) =>
    match node with
    | .file bytes => if before.node? l = some node then none else some (l, bytes)
    | .folder => none

/-! What a write does. -/

theorem node?_put_self (fs : FileSystem) {l : Location} (bytes : Bytes) (h : l.names ≠ []) :
    (fs.put l bytes).node? l = some (.file bytes) := by
  simp [put, node?, h]

theorem node?_put_of_ne (fs : FileSystem) {l other : Location} (bytes : Bytes) (h : other ≠ l) :
    (fs.put l bytes).node? other = fs.node? other := by
  have hp : (l == other) = false := by simpa using Ne.symm h
  simp only [node?, put, List.find?_cons, hp, List.find?_filter]
  congr 3
  funext entry
  by_cases he : entry.1 = other
  · simp [he, h]
  · simp [he]

theorem enter_eq_ok_iff {fs : FileSystem} {l : Location} : fs.enter l = .ok () ↔ fs.node? l = some .folder := by
  unfold enter
  split <;> simp_all

theorem follow_eq_ok_iff {fs : FileSystem} {l l' : Location} {step : Path.Step} :
    fs.follow l step = .ok l' ↔ fs.node? l = some .folder ∧ step.isTooLong = false ∧ l.follow step = l' := by
  rw [← enter_eq_ok_iff]
  unfold follow
  cases fs.enter l <;> cases step.isTooLong <;>
    simp [bind, Except.bind, throw, throwThe, MonadExceptOf.throw, pure, Except.pure]

/-- The folders of one state are folders of the other. -/
def FoldersIn (fs fs' : FileSystem) : Prop := ∀ l, fs.node? l = some .folder → fs'.node? l = some .folder

theorem follow_of_foldersIn {fs fs' : FileSystem} {l l' : Location} {step : Path.Step} (hin : FoldersIn fs fs')
    (h : fs.follow l step = .ok l') : fs'.follow l step = .ok l' := by
  obtain ⟨hl, hrest⟩ := follow_eq_ok_iff.1 h
  exact follow_eq_ok_iff.2 ⟨hin l hl, hrest⟩

/-- Where nothing but folders is passed, only folders matter. -/
theorem followAll_of_foldersIn {fs fs' : FileSystem} (hin : FoldersIn fs fs') (steps : List Path.Step) :
    ∀ {l l' : Location}, fs.followAll l steps = .ok l' → fs'.followAll l steps = .ok l' := by
  unfold followAll
  induction steps with
  | nil => intro l l' h; exact h
  | cons step rest ih =>
    intro l l' h
    rw [List.foldlM_cons] at h ⊢
    cases hs : fs.follow l step with
    | error e => rw [hs] at h; cases h
    | ok next =>
      rw [hs] at h
      rw [follow_of_foldersIn hin hs]
      exact ih h

/-- A file that is put where no folder is replaces none. -/
theorem foldersIn_put {fs : FileSystem} {target : Location} (bytes : Bytes) (ht : fs.node? target ≠ some .folder) :
    FoldersIn fs (fs.put target bytes) := by
  intro l hl
  have hne : l ≠ target := fun e => ht (e ▸ hl)
  rw [node?_put_of_ne fs bytes hne, hl]

/-- A file is written where the last step, a name, leads, and no folder is there. -/
theorem exists_of_destination {fs : FileSystem} {p : Path} {l : Location} (h : fs.destination p = .ok l) :
    ∃ above name, fs.followAll p.origin p.steps.dropLast = .ok above ∧ p.steps.getLast? = some (.enter name) ∧
      p.endsInSlash = false ∧ fs.follow above (.enter name) = .ok l ∧ fs.node? l ≠ some .folder := by
  unfold destination at h
  cases ha : fs.followAll p.origin p.steps.dropLast with
  | error e => simp [ha, bind, Except.bind] at h
  | ok above =>
    simp only [ha, bind, Except.bind] at h
    split at h
    · rename_i name hlast hslash
      cases hf : fs.follow above (.enter name) with
      | error e => simp [hf] at h
      | ok place =>
        by_cases hn : fs.node? place = some .folder
        · simp [hf, hn, throw, throwThe, MonadExceptOf.throw] at h
        · simp only [hf, hn, if_false, pure, Except.pure, Except.ok.injEq] at h
          exact ⟨above, name, rfl, hlast, hslash, h ▸ hf, h ▸ hn⟩
    · cases he : fs.enter above <;> simp [he, throw, throwThe, MonadExceptOf.throw] at h

theorem names_ne_nil_of_node? {fs : FileSystem} {l : Location} (h : fs.node? l ≠ some .folder) : l.names ≠ [] := by
  intro hn
  simp [node?, hn] at h

/-- Once a file is written, its path leads to it. -/
theorem locate_put {fs : FileSystem} {p : Path} {l : Location} (bytes : Bytes) (h : fs.destination p = .ok l) :
    (fs.put l bytes).locate p = .ok l := by
  obtain ⟨above, name, ha, hlast, hslash, hf, hn⟩ := exists_of_destination h
  have hin : FoldersIn fs (fs.put l bytes) := foldersIn_put bytes hn
  have hsteps : p.steps = p.steps.dropLast ++ [.enter name] := by
    obtain ⟨front, hfront⟩ := List.getLast?_eq_some_iff.1 hlast
    simp [hfront]
  have hall : (fs.put l bytes).followAll p.origin p.steps = .ok l := by
    have hp : List.foldlM _ p.origin p.steps.dropLast = Except.ok above := followAll_of_foldersIn hin _ ha
    rw [hsteps, followAll, List.foldlM_append, hp]
    simp [bind, Except.bind, follow_of_foldersIn hin hf, pure, Except.pure]
  simp [locate, hall, hslash, bind, Except.bind, pure, Except.pure]

theorem write_eq_ok_iff {fs fs' : FileSystem} {path : String} {bytes : Bytes} :
    fs.write path bytes = .ok fs' ↔
      ∃ p l, Path.parse path = .ok p ∧ fs.destination p = .ok l ∧ fs.put l bytes = fs' := by
  unfold write
  cases hp : Path.parse path with
  | error e => simp [bind, Except.bind]
  | ok p => cases hd : fs.destination p <;> simp [hd, bind, Except.bind, pure, Except.pure]

/-- What was written is what is read. -/
theorem read_write {fs fs' : FileSystem} {path : String} {bytes : Bytes} (h : fs.write path bytes = .ok fs') :
    fs'.read path = .ok bytes := by
  obtain ⟨p, l, hp, hd, rfl⟩ := write_eq_ok_iff.1 h
  obtain ⟨_, _, _, _, _, _, hn⟩ := exists_of_destination hd
  simp [read, hp, locate_put bytes hd, node?_put_self fs bytes (names_ne_nil_of_node? hn), bind, Except.bind, pure,
    Except.pure]

end FileSystem

end Payphone
