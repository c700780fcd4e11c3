/-
The include sandbox, `dae-config-util/src/path_safety.rs`.

A path is the list of its components, as `Path::components` gives it. The file system answers
each call as it likes; calls of one kind are told apart by a number. The check compares names by
their lossy texts, in which all wrong bytes look alike.
-/
import DaeNext.LibFallible
import DaeNext.LibUtf8

set_option autoImplicit false

namespace DaeNext.PathSafety

open Fallible List

/-- What `Component::Normal` can hold. -/
@[ext]
structure Name where
  bytes : List UInt8
  valid : bytes ≠ [] ∧ bytes ≠ [0x2e] ∧ bytes ≠ [0x2e, 0x2e] ∧ 0 ∉ bytes ∧ 0x2f ∉ bytes
  deriving DecidableEq

inductive Component (ν : Type) where
  | RootDir
  | CurDir
  | ParentDir
  | Normal (part : ν)
  deriving DecidableEq

abbrev Path (ν : Type) := List (Component ν)

inductive ErrorKind where
  | NotFound
  | PermissionDenied
  | Other
  deriving DecidableEq

structure Error where
  kind : ErrorKind
  text : String
  deriving DecidableEq

/-- The answers of the file system. -/
structure FileSystem where
  current_dir : Nat → Except Error (Path Name)
  canonicalize : Nat → Path Name → Except Error (Path Name)
  open_ : Path Name → Except Error Nat
  fd_real_path : Nat → Option (Path Name)

/-- `PathBuf::pop`, and `Path::parent` where there is one. -/
def pop (path : Path Name) : Path Name :=
  if path.getLast? = some .RootDir then path else path.dropLast

def clean_path (path : Path Name) : Path Name :=
  path.foldl (fun cleaned component =>
    match component with
    | .RootDir => [.RootDir]
    | .CurDir => cleaned
    | .ParentDir => pop cleaned
    | .Normal part => cleaned ++ [.Normal part]) []

def abs_clean (fs : FileSystem) (call : Nat) (path : Path Name) : Except Error (Path Name) := do
  let full ← if path.head? = some .RootDir then .ok path
    else (fs.current_dir call).map (· ++ path)
  .ok (clean_path full)

/-- The names of a path. -/
def names (path : Path Name) : List Name :=
  path.filterMap fun
    | .Normal part => some part
    | _ => none

def to_string_lossy (name : Name) : String := Text.from_utf8_lossy name.bytes

def normal_components (path : Path Name) : List String := (names path).map to_string_lossy

def relative_path (path base : Path Name) : Path String :=
  let path_parts := normal_components path
  let base_parts := normal_components base
  let common := ((path_parts.zip base_parts).takeWhile fun parts => parts.1 == parts.2).length
  let rel := replicate (base_parts.length - common) .ParentDir ++
    (path_parts.drop common).map .Normal
  if rel.isEmpty then [.CurDir] else rel

/-- `PathSafetyError`, by its text. -/
def out_of_scope (rel : Path String) : String :=
  "file is out of scope: " ++ "/".intercalate (rel.map fun
    | .RootDir => "/"
    | .CurDir => "."
    | .ParentDir => ".."
    | .Normal part => part)

def ensure_path_in_sub_dir (path dir : Path Name) : Except String Unit :=
  let rel := relative_path path dir
  if rel = [.ParentDir] ∨ [.ParentDir] <+: rel ∨ [.RootDir] <+: rel then .error (out_of_scope rel)
  else .ok ()

/-- The last two checks of `ensure_file_in_sub_dir`. -/
def ensure_real (fs : FileSystem) (call : Nat) (path real_dir : Path Name) : Except String Unit :=
  match fs.canonicalize call path with
  | .ok real => ensure_path_in_sub_dir real real_dir
  | .error err => if err.kind = .NotFound then .ok () else .error err.text

def ensure_file_in_sub_dir (fs : FileSystem) (file_path dir : Path Name) : Except String Unit := do
  let abs_dir ← map_err Error.text (abs_clean fs 0 dir)
  let abs_file_path ← map_err Error.text (abs_clean fs 1 file_path)
  let file_dir := pop abs_file_path
  ensure_path_in_sub_dir file_dir abs_dir
  match fs.canonicalize 0 abs_dir with
  | .error err => if err.kind = .NotFound then .ok () else .error err.text
  | .ok real_dir => do
    ensure_real fs 1 file_dir real_dir
    ensure_real fs 2 abs_file_path real_dir

/-- The descriptor, for a path that is written as `display`. -/
def open_verified_in_sub_dir (fs : FileSystem) (file_path : Path Name) (display : String)
    (dir : Path Name) : Except Error Nat := do
  map_err (Error.mk .PermissionDenied) (ensure_file_in_sub_dir fs file_path dir)
  let file ← fs.open_ file_path
  let real_dir ← map_err (fun err => ⟨.PermissionDenied, err.text⟩) (fs.canonicalize 3 dir)
  match fs.fd_real_path file with
  | none =>
    .error ⟨.PermissionDenied, s!"cannot resolve opened file {display} via /proc/self/fd"⟩
  | some real_file => do
    map_err (Error.mk .PermissionDenied) (ensure_path_in_sub_dir real_file real_dir)
    .ok file

/-! ## What passes the check -/

/-- The lossy text of the name is that of no other name. -/
def Plain (name : Name) : Prop :=
  ∃ text : String, name.bytes = Text.as_bytes text ∧ '\uFFFD' ∉ text.toList

theorem Plain.eq_of_lossy {name other : Name} (h : Plain name)
    (heq : to_string_lossy other = to_string_lossy name) : other = name := by
  obtain ⟨text, hbytes, hplain⟩ := h
  rw [to_string_lossy, to_string_lossy, hbytes, Text.from_utf8_lossy_as_bytes] at heq
  have hother := @Text.from_utf8_of_lossy other.bytes (by rw [heq]; exact hplain)
  rw [heq] at hother
  exact Name.ext ((Text.as_bytes_of_from_utf8 hother).trans hbytes.symm)

theorem prefix_of_common {dirs files : List Name} (hplain : ∀ name ∈ dirs, Plain name)
    (h : dirs.length ≤ (((files.map to_string_lossy).zip (dirs.map to_string_lossy)).takeWhile
      fun parts => parts.1 == parts.2).length) : dirs <+: files := by
  induction dirs generalizing files with
  | nil => exact nil_prefix
  | cons name dirs ih =>
    obtain ⟨hname, hdirs⟩ := forall_mem_cons.mp hplain
    cases files with
    | nil => cases h
    | cons file files =>
      rw [map_cons, map_cons, zip_cons_cons, takeWhile_cons] at h
      split_ifs at h with heq
      · refine cons_prefix_cons.mpr ⟨?_, ih hdirs (Nat.le_of_succ_le_succ h)⟩
        exact (hname.eq_of_lossy (eq_of_beq heq)).symm
      · cases h

theorem ensure_path_in_sub_dir_ok {path dir : Path Name} (hplain : ∀ name ∈ names dir, Plain name)
    (h : ensure_path_in_sub_dir path dir = .ok ()) : names dir <+: names path := by
  rw [ensure_path_in_sub_dir] at h
  split_ifs at h with hescaped
  apply prefix_of_common hplain
  by_contra hshort
  refine hescaped (.inr (.inl ?_))
  obtain ⟨n, hn⟩ := Nat.exists_eq_add_of_lt (Nat.not_le.mp hshort)
  rw [relative_path, normal_components, normal_components, length_map, hn, Nat.add_assoc,
    Nat.add_sub_cancel_left]
  exact prefix_append [Component.ParentDir] _

/-- The file `a` below a directory. -/
def below (dir : Name) : Path Name := [.RootDir, .Normal dir, .Normal ⟨[0x61], by decide⟩]

/-- `a` is a link to the file of its name below `target`. -/
def linked (dir target : Name) : FileSystem where
  current_dir _ := .ok [.RootDir]
  canonicalize call _ := .ok (if call = 2 then below target else [.RootDir, .Normal dir])
  open_ _ := .ok 3
  fd_real_path _ := some (below target)

def opened (dir target : Name) : Except Error Nat :=
  open_verified_in_sub_dir (linked dir target) (below dir) "a" [.RootDir, .Normal dir]

def d : Name := ⟨[0x64], by decide⟩

end DaeNext.PathSafety
