import LightClient.Archive
/-!
# Files

A `Disk` holds files, each at the path that leads to it from the working directory. A directory is
there as long as a file is in it; the working directory, those above it and the root are always
there.

A name is resolved part by part, as the operating system does.

* All parts but the last are passed through, so they must be directories. A part that is a file is
  one fault, and a part that is nothing is another.
* A last part `.` or `..` is a directory, which is neither read nor written.
* A slash after the last part demands a directory. A reader finds out whether there is one; a writer
  is refused at once, whatever the last part is.
* A part has at most 255 bytes and a whole name less than 4096.

A file that is written is emptied first, and then takes bytes as a `Sink` does. A name that leads to no file
leaves all files alone; a write that fails midway leaves the first bytes at the path (`write_eq_error`).

Main statement: what is written is read back under the same name (`read_of_write`).
-/
namespace LightClient

/-- The parts that lead to a file, outermost directory first. Leading parts `..` go above the
working directory, and a first part `/` starts at the root. -/
abbrev Path := List String

namespace Path

/-- The root directory. -/
def root : Path := ["/"]

/-- Whether only steps upwards lead here, so that it is the working directory or one above it. -/
def isAbove (path : Path) : Bool := path.all (· == "..")

/-- The directory that holds this one. The root holds itself. -/
def parent (path : Path) : Path :=
  if path = root then root
  else if path.isAbove then path ++ [".."]
  else path.dropLast

/-- Whether a part names a directory by its place: this one or the one above. -/
def isRelative (part : String) : Bool := part == "." || part == ".."

/-- Where one part of a name leads from a directory. -/
def step (here : Path) (part : String) : Path :=
  if part = "." then here
  else if part = ".." then here.parent
  else here ++ [part]

/-- The directory from which a name is followed. -/
def start (name : String) : Path := if name.startsWith "/" then root else []

/-- The pieces of some letters between slashes, the first of them behind what it begins with. -/
def pieces : (first : List Char) → (letters : List Char) → List (List Char)
  | first, [] => [first]
  | first, c :: cs => if c = '/' then first :: pieces [] cs else pieces (first ++ [c]) cs

/-- The parts of a name. Slashes in a row count as one. -/
def parts (name : String) : List String :=
  ((pieces [] name.toList).filter (!·.isEmpty)).map String.ofList

end Path

/-- The files of a machine. -/
structure Disk where
  files : List (Path × Bytes)
  /-- How a file takes what is written to it. -/
  sink : Sink
  deriving DecidableEq

/-- What a name leads to. -/
inductive Place where
  | directory
  /-- An entry of a directory, there or not; `asDirectory` if the name demands a directory. -/
  | entry (here : Path) (part : String) (asDirectory : Bool)
  deriving DecidableEq

namespace Disk

/-- A disk with room for everything. -/
def ofFiles (files : List (Path × Bytes)) : Disk := ⟨files, .unlimited⟩

/-- A disk without files. -/
def empty : Disk := ofFiles []

/-- The content of the file at a path. -/
def content? (disk : Disk) (path : Path) : Option Bytes :=
  (disk.files.find? fun f => f.1 == path).map (·.2)

/-- Whether a path is that of a directory. -/
def isDirectory (disk : Disk) (path : Path) : Bool :=
  path == Path.root || path.isAbove ||
    disk.files.any fun f => path.isPrefixOf f.1 && path.length < f.1.length

/-- The disk with a file at a path, whatever was there before. -/
def put (disk : Disk) (path : Path) (content : Bytes) : Disk :=
  if (disk.content? path).isSome then
    { disk with files := disk.files.map fun f => if f.1 == path then (path, content) else f }
  else { disk with files := disk.files ++ [(path, content)] }

/-- The most bytes that a part of a name has. -/
def partLimit : Nat := 255

/-- The number of bytes that no name may reach. -/
def nameLimit : Nat := 4096

/-- The directory that the parts of a name lead to, through directories only. -/
def enter (disk : Disk) : (here : Path) → (parts : List String) → Except Fault Path
  | here, [] => .ok here
  | here, part :: parts =>
      let next := here.step part
      if partLimit < part.utf8ByteSize then .error .nameTooLong
      else if disk.isDirectory next then disk.enter next parts
      else if (disk.content? next).isSome then .error .notDirectory
      else .error .notFound

/-- What a name leads to, once all parts but the last have been passed through. -/
def resolve (disk : Disk) (name : String) : Except Fault Place :=
  if name.isEmpty then .error .notFound
  else if name.toList.contains '\x00' then .error .zeroInName
  else if nameLimit ≤ name.utf8ByteSize then .error .nameTooLong
  else
    (disk.enter (Path.start name) (Path.parts name).dropLast).map fun here =>
      match (Path.parts name).getLast? with
      | none => .directory
      | some part =>
          if Path.isRelative part then .directory else .entry here part (name.endsWith "/")

/-- The content of a file. -/
def read (disk : Disk) (name : String) : Except Fault Bytes :=
  match disk.resolve name with
  | .error fault => .error fault
  | .ok .directory => .error .isDirectory
  | .ok (.entry here part asDirectory) =>
      if partLimit < part.utf8ByteSize then .error .nameTooLong
      else match disk.content? (here ++ [part]) with
        | some content => if asDirectory then .error .notDirectory else .ok content
        | none =>
            if disk.isDirectory (here ++ [part]) then .error .isDirectory else .error .notFound

/-- The path of the file that a name leads a writer to. -/
def target (disk : Disk) (name : String) : Except Fault Path :=
  match disk.resolve name with
  | .error fault => .error fault
  | .ok .directory => .error .isDirectory
  | .ok (.entry here part asDirectory) =>
      if asDirectory then .error .isDirectory
      else if partLimit < part.utf8ByteSize then .error .nameTooLong
      else if disk.isDirectory (here ++ [part]) then .error .isDirectory
      else .ok (here ++ [part])

/-- Writes a file anew. What was there before is gone as soon as the file is open. -/
def write (disk : Disk) (name : String) (content : Bytes) : Except Fault Unit × Disk :=
  match disk.target name with
  | .error fault => (.error fault, disk)
  | .ok path =>
      let written := disk.sink.write [content]
      (written.outcome, disk.put path written.bytes)

/-! ## Names of one part -/

/-- A name that leads to an entry of the working directory. -/
def IsEntry (name : String) : Prop :=
  name.isEmpty = false ∧ name.toList.contains '\x00' = false ∧ name.utf8ByteSize ≤ partLimit ∧
    Path.start name = [] ∧ Path.parts name = [name] ∧ Path.isRelative name = false ∧ name.endsWith "/" = false

instance (name : String) : Decidable (IsEntry name) := inferInstanceAs (Decidable (_ ∧ _))

theorem IsEntry.resolve_eq {name : String} (h : IsEntry name) (disk : Disk) :
    disk.resolve name = .ok (.entry [] name false) := by
  obtain ⟨hempty, hzero, hsize, hstart, hparts, hrelative, hslash⟩ := h
  have hlimit : ¬ nameLimit ≤ name.utf8ByteSize := by
    simp only [partLimit, nameLimit] at hsize ⊢
    omega
  rw [resolve, hempty, if_neg Bool.false_ne_true, hzero, if_neg Bool.false_ne_true, if_neg hlimit, hstart, hparts]
  simp [enter, hrelative, hslash, Except.map]

theorem IsEntry.read_eq {name : String} (h : IsEntry name) {disk : Disk} {content : Bytes}
    (hcontent : disk.content? [name] = some content) : disk.read name = .ok content := by
  have hsize : ¬ partLimit < name.utf8ByteSize := Nat.not_lt.mpr h.2.2.1
  rw [read, h.resolve_eq]
  simp [hsize, hcontent]

theorem IsEntry.target_eq {name : String} (h : IsEntry name) {disk : Disk}
    (hdirectory : disk.isDirectory [name] = false) : disk.target name = .ok [name] := by
  have hsize : ¬ partLimit < name.utf8ByteSize := Nat.not_lt.mpr h.2.2.1
  rw [target, h.resolve_eq]
  simp [hsize, hdirectory]

/-! ## Reading what was written -/

theorem content?_put (disk : Disk) (path : Path) (content : Bytes) :
    (disk.put path content).content? path = some content := by
  unfold put
  split
  · next h =>
    obtain ⟨f, hf, -⟩ := Option.map_eq_some_iff.1 (Option.eq_some_of_isSome h)
    have same : ((fun f : Path × Bytes => f.1 == path) ∘
        fun f => if f.1 == path then (path, content) else f) = fun f => f.1 == path := by
      funext f
      by_cases hp : f.1 = path <;> simp [hp]
    have hp := List.find?_some hf
    simp only [content?, List.find?_map, same, hf, Option.map_some]
    rw [if_pos hp]
  · next h =>
    have none : disk.files.find? (fun f => f.1 == path) = none := by
      simpa only [content?, Option.isSome_map, Bool.not_eq_true, Option.isSome_eq_false_iff,
        Option.isNone_iff_eq_none] using h
    simp [content?, List.find?_append, none]

/-- A new file takes no directory away. -/
theorem isDirectory_put {disk : Disk} {dir : Path} (h : disk.isDirectory dir) (path : Path)
    (content : Bytes) : (disk.put path content).isDirectory dir := by
  have kept : ∀ f ∈ disk.files, ∃ g ∈ (disk.put path content).files, g.1 = f.1 := by
    intro f hf
    unfold put
    split
    · refine ⟨_, List.mem_map_of_mem hf, ?_⟩
      by_cases hp : f.1 = path <;> simp [hp]
    · exact ⟨f, List.mem_append_left _ hf, rfl⟩
  simp only [isDirectory, Bool.or_eq_true, List.any_eq_true] at h ⊢
  rcases h with h | ⟨f, hf, holds⟩
  · exact .inl h
  · obtain ⟨g, hg, eq⟩ := kept f hf
    exact .inr ⟨g, hg, eq ▸ holds⟩

/-- A new file is in no one's way: what could be passed through still can. -/
theorem enter_put {disk : Disk} {here there : Path} {parts : List String}
    (h : disk.enter here parts = .ok there) (path : Path) (content : Bytes) :
    (disk.put path content).enter here parts = .ok there := by
  fun_induction enter disk here parts with
  | case1 => simpa [enter] using h
  | case2 => cases h
  | case3 here part parts next short dir ih =>
    rw [enter, if_neg short, if_pos (isDirectory_put dir path content)]
    exact ih h
  | case4 => cases h
  | case5 => cases h

/-- A name leads to the same place after a new file. -/
theorem resolve_put {disk : Disk} {name : String} {place : Place}
    (h : disk.resolve name = .ok place) (path : Path) (content : Bytes) :
    (disk.put path content).resolve name = .ok place := by
  unfold resolve at h ⊢
  split
  · simp_all
  · split
    · simp_all
    · split
      · simp_all
      · cases he : disk.enter (Path.start name) (Path.parts name).dropLast with
        | error fault => simp_all [Except.map]
        | ok here => simp_all [enter_put he path content, Except.map]

theorem read_put_of_target {disk : Disk} {name : String} {path : Path} (h : disk.target name = .ok path)
    (content : Bytes) : (disk.put path content).read name = .ok content := by
  unfold target at h
  split at h
  · cases h
  · cases h
  · next here part asDirectory hresolve =>
    split at h
    · cases h
    · split at h
      · cases h
      · split at h
        · cases h
        · cases h
          simp_all [read, resolve_put hresolve, content?_put]

/-- What is written is read back under the same name. -/
theorem read_of_write {disk disk' : Disk} {name : String} {content : Bytes}
    (h : disk.write name content = (.ok (), disk')) : disk'.read name = .ok content := by
  unfold write at h
  split at h
  · cases h
  · next path htarget =>
    obtain ⟨hok, rfl⟩ := Prod.mk.inj h
    have hall : (disk.sink.write [content]).bytes = [content].flatten := Sink.writeAll_of_ok hok
    rw [read_put_of_target htarget, hall, List.flatten_singleton]

/-- A disk with room takes what is written under a name that leads to a file. -/
theorem write_of_target {disk : Disk} {name : String} {path : Path} (h : disk.target name = .ok path)
    (hsink : disk.sink = .unlimited) (content : Bytes) :
    disk.write name content = (.ok (), disk.put path content) := by
  rw [write, h, hsink]
  simp only [Sink.write_unlimited]

/-- A write that fails leaves all files alone if the name leads to none, and otherwise what the file took before
it failed. -/
theorem write_eq_error {disk disk' : Disk} {name : String} {content : Bytes} {fault : Fault}
    (h : disk.write name content = (.error fault, disk')) :
    (disk.target name = .error fault ∧ disk' = disk) ∨
      ∃ path n, disk.target name = .ok path ∧ disk' = disk.put path (content.take n) ∧
        disk'.read name = .ok (content.take n) := by
  unfold write at h
  split at h
  · next fault' htarget =>
    cases h
    exact .inl ⟨htarget, rfl⟩
  · next path htarget =>
    obtain ⟨-, rfl⟩ := Prod.mk.inj h
    obtain ⟨n, hn⟩ := Sink.take_of_writeAll disk.sink disk.sink.room [content]
    rw [List.flatten_singleton] at hn
    rw [Sink.write, hn]
    exact .inr ⟨path, n, htarget, rfl, read_put_of_target htarget _⟩

end Disk

namespace Archive

/-- Writes an archive to a file. -/
def save (disk : Disk) (name : String) (header : TickHeader) (transactions : List Transaction) :
    Outcome Unit × Disk :=
  (disk.write name (toBytes header transactions)).map (·.mapError .io) id

/-- Reads an archive from the content of a file. -/
def ofContent (content : Except Fault Bytes) : Outcome Archive :=
  match content with
  | .ok bs => (read (.ofBytes bs)).1
  | .error fault => .error (.io fault)

/-- Reads an archive from a file. -/
def load (disk : Disk) (name : String) : Outcome Archive := ofContent (disk.read name)

end Archive

namespace ComputorSet

/-- Reads a computor list from the content of a file. -/
def ofContent (anchor : PublicKey) (content : Except Fault Bytes) : Outcome (Checked ComputorSet) :=
  match content with
  | .ok bs => Outcome.ofRecord (load anchor bs)
  | .error fault => .error (.io fault)

/-- Reads a computor list from a file (`read_file`). -/
def loadFile (disk : Disk) (name : String) (anchor : PublicKey) : Outcome (Checked ComputorSet) :=
  ofContent anchor (disk.read name)

/-- Writes a computor list to a file (`write_file`). -/
def writeFile (disk : Disk) (name : String) (set : ComputorSet) : Outcome Unit × Disk :=
  (disk.write name set.toBytes).map (·.mapError .io) id

end ComputorSet

end LightClient
