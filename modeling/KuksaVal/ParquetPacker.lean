import KuksaVal.Runs
import Mathlib.Data.Int.Notation
import Mathlib.Data.List.Basic
import Mathlib.Logic.Function.Basic

/-! The uploader of recorded values: rows are packed into files of a fixed number of rows, which
are uploaded and deleted. It may be interrupted between any two statements. -/

/-- The next statement. -/
inductive PackerPc (ρ : Type*) where
  | loop
  | write (row : Option ρ)
  | count
  | check
  | close
  | upload
  | unlink
  | create
  | openFile
  | reset
  | shutdown
  | cleanup
  | ended (ok : Bool)

/-- The packer with the files of its directory and the objects of its bucket. What was written and
uploaded is noted. -/
structure ParquetPacker (ρ : Type*) where
  maxNumRows : ℤ
  pqfile : String
  isOpen : Bool := true
  numRows : ℕ := 0
  files : String → Option (List ρ)
  bucket : String → Option (List ρ)
  written : List ρ := []
  uploads : List (String × List ρ) := []
  pc : PackerPc ρ := .loop

inductive PackerEvent (ρ : Type*) where
  /-- The values that were fetched, unless they cannot be cast to the schema. -/
  | row (row : Option ρ)
  | statement
  | now (pqfile : String)
  /-- An exception, or a signal. -/
  | raise
  /-- An exception after the object has been stored. -/
  | raiseStored

namespace ParquetPacker

variable {ρ : Type*} (st : ParquetPacker ρ)

def goto (pc : PackerPc ρ) : ParquetPacker ρ := { st with pc := pc }

/-- The rows of the current file; there is none between its deletion and the next one. -/
def rows : List ρ := (st.files st.pqfile).getD []

def setFile (rows : Option (List ρ)) : ParquetPacker ρ :=
  { st with files := Function.update st.files st.pqfile rows }

def writeTable (row : ρ) : ParquetPacker ρ :=
  { st.setFile (some (st.rows ++ [row])) with written := st.written ++ [row] }

def upload : ParquetPacker ρ :=
  { st with
    bucket := Function.update st.bucket st.pqfile (some st.rows)
    uploads := st.uploads ++ [(st.pqfile, st.rows)] }

/-- Deleting a file that is not there raises an exception. -/
def unlink : Option (ParquetPacker ρ) := (st.files st.pqfile).map fun _ => st.setFile none

/-- The statements of `write_table`, `create_new_parquet` and `shutdown` one by one. -/
def next : PackerEvent ρ → Option (ParquetPacker ρ)
  | .row row =>
      match st.pc with
      | .loop => some (st.goto (.write row))
      | _ => none
  | .statement =>
      match st.pc with
      | .write (some row) => some ((st.writeTable row).goto .count)
      | .write none => some (st.goto .check)
      | .count => some { st with numRows := st.numRows + 1, pc := .check }
      | .check => some (st.goto (if 0 < st.maxNumRows ∧ st.maxNumRows ≤ st.numRows then .close
          else .loop))
      | .close => some { st with isOpen := false, pc := .upload }
      | .upload => some (st.upload.goto .unlink)
      | .unlink => some ((st.unlink.map (goto · .create)).getD (st.goto .shutdown))
      | .openFile => some { st.setFile (some []) with isOpen := true, pc := .reset }
      | .reset => some { st with numRows := 0, pc := .loop }
      | .shutdown => some { st with isOpen := false, pc := .cleanup }
      | .cleanup => some ((st.unlink.map (goto · (.ended true))).getD (st.goto (.ended false)))
      | _ => none
  | .now pqfile =>
      match st.pc with
      | .create => some { st with pqfile := pqfile, pc := .openFile }
      | _ => none
  | .raise =>
      match st.pc with
      | .ended _ => none
      | .shutdown | .cleanup => some (st.goto (.ended false))
      | _ => some (st.goto .shutdown)
  | .raiseStored =>
      match st.pc with
      | .upload => some (st.upload.goto .shutdown)
      | _ => none

/-- The time is not that of an earlier file. -/
def Fresh (st : ParquetPacker ρ) : PackerEvent ρ → Prop
  | .now pqfile => pqfile ≠ st.pqfile ∧ pqfile ∉ st.uploads.map Prod.fst
  | _ => True

/-- All runs of a packer with an empty file. -/
def system (maxNumRows : ℤ) (pqfile : String) (bucket : String → Option (List ρ)) :
    TransitionSystem (ParquetPacker ρ) (PackerEvent ρ) :=
  .ofNext { maxNumRows, pqfile, bucket, files := Function.update (fun _ => none) pqfile (some []) }
    next

/-- The rows in the bucket. -/
def uploaded : List ρ := st.uploads.flatMap Prod.snd

/-- Objects are full files, and there is no file but the current one. -/
structure Sound (st : ParquetPacker ρ) : Prop where
  full : ∀ u ∈ st.uploads, 0 < st.maxNumRows ∧ (u.2.length : ℤ) = st.maxNumRows
  stored : ∀ u ∈ st.uploads, st.bucket u.1 = some u.2
  single : ∀ name, name ≠ st.pqfile → st.files name = none

/-- The current file has so many rows, the last ones that were written. -/
structure Packing (st : ParquetPacker ρ) (n : ℕ) : Prop where
  file : st.files st.pqfile = some st.rows
  name : st.pqfile ∉ st.uploads.map Prod.fst
  order : st.written = st.uploaded ++ st.rows
  count : st.rows.length = n

/-- All rows are in the bucket but some of the last, not more than a file has. -/
def Ordered (st : ParquetPacker ρ) : Prop :=
  ∃ rest, st.written = st.uploaded ++ rest ∧ (0 < st.maxNumRows → (rest.length : ℤ) ≤ st.maxNumRows)

/-- What holds before the next statement. -/
def Phase (st : ParquetPacker ρ) : Prop :=
  match st.pc with
  | .loop | .write _ => st.Packing st.numRows ∧ (0 < st.maxNumRows → st.numRows < st.maxNumRows)
  | .count => st.Packing (st.numRows + 1) ∧ (0 < st.maxNumRows → st.numRows < st.maxNumRows)
  | .check => st.Packing st.numRows ∧ (0 < st.maxNumRows → st.numRows ≤ st.maxNumRows)
  | .close | .upload => st.Packing st.numRows ∧ 0 < st.maxNumRows ∧ st.numRows = st.maxNumRows
  | .unlink => (st.files st.pqfile).isSome = true ∧ st.written = st.uploaded
  | .create => st.files st.pqfile = none ∧ st.written = st.uploaded
  | .openFile => st.files st.pqfile = none ∧ st.written = st.uploaded ∧
      st.pqfile ∉ st.uploads.map Prod.fst
  | .reset => st.Packing 0
  | .shutdown | .cleanup => st.Ordered
  | .ended ok => st.Ordered ∧ (ok = true → st.files st.pqfile = none)

variable {st} {st' : ParquetPacker ρ} {n : ℕ}

theorem Packing.ordered (h : st.Packing n) (hn : 0 < st.maxNumRows → (n : ℤ) ≤ st.maxNumRows) :
    st.Ordered :=
  ⟨st.rows, h.order, fun hm => by rw [h.count]; exact hn hm⟩

theorem ordered_of_eq (h : st.written = st.uploaded) : st.Ordered :=
  ⟨[], by rw [h, List.append_nil], fun hm => Int.le_of_lt hm⟩

/-- Wherever the packer is interrupted, rows are in the bucket in their order. -/
theorem Phase.ordered (h : st.Phase) : st.Ordered := by
  cases hpc : st.pc with
  | loop =>
    simp only [Phase, hpc] at h
    exact h.1.ordered fun hm => Int.le_of_lt (h.2 hm)
  | write row =>
    simp only [Phase, hpc] at h
    exact h.1.ordered fun hm => Int.le_of_lt (h.2 hm)
  | count =>
    simp only [Phase, hpc] at h
    exact h.1.ordered h.2
  | check =>
    simp only [Phase, hpc] at h
    exact h.1.ordered h.2
  | close =>
    simp only [Phase, hpc] at h
    exact h.1.ordered fun _ => Int.le_of_eq h.2.2
  | upload =>
    simp only [Phase, hpc] at h
    exact h.1.ordered fun _ => Int.le_of_eq h.2.2
  | unlink =>
    simp only [Phase, hpc] at h
    exact ordered_of_eq h.2
  | create =>
    simp only [Phase, hpc] at h
    exact ordered_of_eq h.2
  | openFile =>
    simp only [Phase, hpc] at h
    exact ordered_of_eq h.2.1
  | reset =>
    simp only [Phase, hpc] at h
    exact h.ordered Int.le_of_lt
  | shutdown => simpa only [Phase, hpc] using h
  | cleanup => simpa only [Phase, hpc] using h
  | ended ok =>
    simp only [Phase, hpc] at h
    exact h.1

section Steps
variable (st)

@[simp] theorem rows_setFile (rows : List ρ) : (st.setFile (some rows)).rows = rows := by
  simp [ParquetPacker.rows, setFile]

@[simp] theorem setFile_files (rows : Option (List ρ)) :
    (st.setFile rows).files st.pqfile = rows := by
  simp [setFile]

theorem setFile_single {rows : Option (List ρ)}
    (h : ∀ name, name ≠ st.pqfile → st.files name = none) (name : String) (hn : name ≠ st.pqfile) :
    (st.setFile rows).files name = none := by
  simpa [setFile, Function.update_of_ne hn] using h name hn

end Steps

theorem Sound.goto (h : st.Sound) (isOpen : Bool) (numRows : ℕ) (pc : PackerPc ρ) :
    Sound { st with isOpen := isOpen, numRows := numRows, pc := pc } :=
  ⟨h.full, h.stored, h.single⟩

theorem Packing.goto (h : st.Packing n) (isOpen : Bool) (numRows : ℕ) (pc : PackerPc ρ) :
    Packing { st with isOpen := isOpen, numRows := numRows, pc := pc } n :=
  ⟨h.file, h.name, h.order, h.count⟩

theorem Sound.writeTable (h : st.Sound) (row : ρ) : (st.writeTable row).Sound :=
  ⟨h.full, h.stored, st.setFile_single h.single⟩

/-- A row that is written is the last one of the current file. -/
theorem Packing.writeTable (h : st.Packing n) (row : ρ) :
    (st.writeTable row).Packing (n + 1) := by
  have hrows : (st.writeTable row).rows = st.rows ++ [row] := st.rows_setFile (st.rows ++ [row])
  refine ⟨?_, h.name, ?_, ?_⟩
  · rw [hrows]
    exact st.setFile_files _
  · rw [hrows, ← List.append_assoc]
    exact congrArg (· ++ [row]) h.order
  · rw [hrows, List.length_append, h.count]
    rfl

/-- A new file has no rows. -/
theorem packing_setFile_nil (horder : st.written = st.uploaded)
    (hname : st.pqfile ∉ st.uploads.map Prod.fst) : (st.setFile (some [])).Packing 0 := by
  have hrows : (st.setFile (some [])).rows = [] := st.rows_setFile []
  refine ⟨?_, hname, ?_, ?_⟩
  · rw [hrows]
    exact st.setFile_files _
  · rw [hrows, List.append_nil]
    exact horder
  · rw [hrows]
    rfl

/-- A full file is stored once more. -/
theorem Sound.upload (h : st.Sound) (hp : st.Packing st.numRows) (hm : 0 < st.maxNumRows)
    (hn : (st.numRows : ℤ) = st.maxNumRows) :
    st.upload.Sound ∧ st.upload.written = st.upload.uploaded := by
  refine ⟨⟨?_, ?_, h.single⟩, ?_⟩
  · intro u hu
    rcases List.mem_append.mp hu with hu | hu
    · exact h.full u hu
    · obtain rfl := List.mem_singleton.mp hu
      exact ⟨hm, by rw [hp.count]; exact hn⟩
  · intro u hu
    rcases List.mem_append.mp hu with hu | hu
    · have hne : u.1 ≠ st.pqfile := fun he => hp.name (he ▸ List.mem_map_of_mem hu)
      simpa [ParquetPacker.upload, Function.update_of_ne hne] using h.stored u hu
    · obtain rfl := List.mem_singleton.mp hu
      simp [ParquetPacker.upload]
  · rw [show st.upload.written = st.written from rfl, hp.order]
    simp [uploaded, ParquetPacker.upload]

theorem unlink_eq_some (h : st.unlink = some st') : st' = st.setFile none := by
  obtain ⟨-, -, rfl⟩ := Option.map_eq_some_iff.mp h
  rfl

/-- A file that is deleted leaves none. -/
theorem Sound.unlink (h : st.Sound) (hu : st.unlink = some st') :
    st'.Sound ∧ st'.files st'.pqfile = none := by
  obtain rfl := unlink_eq_some hu
  exact ⟨⟨h.full, h.stored, st.setFile_single h.single⟩, st.setFile_files none⟩

/-- One statement of the loop. -/
theorem statement (h : st.Sound) (hp : st.Phase) (hs : st.next .statement = some st') :
    st'.Sound ∧ st'.Phase := by
  cases hpc : st.pc with
  | loop => simp [ParquetPacker.next, hpc] at hs
  | write row =>
    simp only [Phase, hpc] at hp
    obtain ⟨hpacking, hlt⟩ := hp
    cases row with
    | none =>
      simp only [ParquetPacker.next, hpc, Option.some.injEq] at hs
      obtain rfl := hs
      exact ⟨h.goto .., hpacking.goto .., fun hm => Int.le_of_lt (hlt hm)⟩
    | some row =>
      simp only [ParquetPacker.next, hpc, Option.some.injEq] at hs
      obtain rfl := hs
      exact ⟨(h.writeTable row).goto .., (hpacking.writeTable row).goto .., hlt⟩
  | count =>
    simp only [Phase, hpc] at hp
    obtain ⟨hpacking, hlt⟩ := hp
    simp only [ParquetPacker.next, hpc, Option.some.injEq] at hs
    obtain rfl := hs
    exact ⟨h.goto .., hpacking.goto .., fun hm => hlt hm⟩
  | check =>
    simp only [Phase, hpc] at hp
    obtain ⟨hpacking, hle⟩ := hp
    simp only [ParquetPacker.next, hpc, Option.some.injEq] at hs
    obtain rfl := hs
    refine ⟨h.goto .., ?_⟩
    split_ifs with hc
    · exact ⟨hpacking.goto .., hc.1, Int.le_antisymm (hle hc.1) hc.2⟩
    · exact ⟨hpacking.goto .., fun hm => Int.not_le.mp fun hc' => hc ⟨hm, hc'⟩⟩
  | close =>
    simp only [Phase, hpc] at hp
    obtain ⟨hpacking, hm⟩ := hp
    simp only [ParquetPacker.next, hpc, Option.some.injEq] at hs
    obtain rfl := hs
    exact ⟨h.goto .., hpacking.goto .., hm⟩
  | upload =>
    simp only [Phase, hpc] at hp
    simp only [ParquetPacker.next, hpc, Option.some.injEq] at hs
    obtain rfl := hs
    obtain ⟨hsound, heq⟩ := h.upload hp.1 hp.2.1 hp.2.2
    exact ⟨hsound.goto .., by simp [ParquetPacker.goto, ParquetPacker.upload, hp.1.file], heq⟩
  | unlink =>
    simp only [Phase, hpc] at hp
    obtain ⟨rows, hrows⟩ := Option.isSome_iff_exists.mp hp.1
    have hu : st.unlink = some (st.setFile none) := by simp [ParquetPacker.unlink, hrows]
    simp only [ParquetPacker.next, hpc, hu, Option.map_some, Option.getD_some,
      Option.some.injEq] at hs
    obtain rfl := hs
    obtain ⟨hsound, hnone⟩ := h.unlink hu
    exact ⟨hsound.goto .., hnone, hp.2⟩
  | create => simp [ParquetPacker.next, hpc] at hs
  | openFile =>
    simp only [Phase, hpc] at hp
    obtain ⟨hnone, horder, hname⟩ := hp
    simp only [ParquetPacker.next, hpc, Option.some.injEq] at hs
    obtain rfl := hs
    exact ⟨⟨h.full, h.stored, st.setFile_single h.single⟩,
      (packing_setFile_nil horder hname).goto ..⟩
  | reset =>
    simp only [Phase, hpc] at hp
    simp only [ParquetPacker.next, hpc, Option.some.injEq] at hs
    obtain rfl := hs
    exact ⟨h.goto .., hp.goto .., fun hm => hm⟩
  | shutdown =>
    simp only [Phase, hpc] at hp
    simp only [ParquetPacker.next, hpc, Option.some.injEq] at hs
    obtain rfl := hs
    exact ⟨h.goto .., hp⟩
  | cleanup =>
    simp only [Phase, hpc] at hp
    cases hu : st.unlink with
    | none =>
      simp only [ParquetPacker.next, hpc, hu, Option.map_none, Option.getD_none,
        Option.some.injEq] at hs
      obtain rfl := hs
      exact ⟨h.goto .., hp, by simp⟩
    | some t =>
      simp only [ParquetPacker.next, hpc, hu, Option.map_some, Option.getD_some,
        Option.some.injEq] at hs
      obtain rfl := hs
      obtain ⟨hsound, hnone⟩ := h.unlink hu
      obtain rfl := unlink_eq_some hu
      exact ⟨hsound.goto .., hp, fun _ => hnone⟩
  | ended ok => simp [ParquetPacker.next, hpc] at hs

theorem step (h : st.Sound) (hp : st.Phase) {e : PackerEvent ρ} (hok : st.Fresh e)
    (hs : st.next e = some st') : st'.Sound ∧ st'.Phase := by
  cases e with
  | row row =>
    cases hpc : st.pc with
    | loop =>
      simp only [Phase, hpc] at hp
      obtain ⟨hpacking, hlt⟩ := hp
      simp only [ParquetPacker.next, hpc, Option.some.injEq] at hs
      obtain rfl := hs
      exact ⟨h.goto .., hpacking.goto .., hlt⟩
    | _ => simp [ParquetPacker.next, hpc] at hs
  | statement => exact statement h hp hs
  | now pqfile =>
    cases hpc : st.pc with
    | create =>
      simp only [Phase, hpc] at hp
      simp only [ParquetPacker.next, hpc, Option.some.injEq] at hs
      obtain rfl := hs
      have hnone (name : String) : st.files name = none := by
        by_cases hn : name = st.pqfile
        · rw [hn]
          exact hp.1
        · exact h.single name hn
      exact ⟨⟨h.full, h.stored, fun name _ => hnone name⟩, hnone pqfile, hp.2, hok.2⟩
    | _ => simp [ParquetPacker.next, hpc] at hs
  | raise =>
    have hordered := hp.ordered
    have hshutdown : (st.goto .shutdown).Sound ∧ (st.goto .shutdown).Phase :=
      ⟨h.goto .., hordered⟩
    have hended : (st.goto (.ended false)).Sound ∧ (st.goto (.ended false)).Phase :=
      ⟨h.goto .., hordered, by simp⟩
    cases hpc : st.pc with
    | ended ok => simp [ParquetPacker.next, hpc] at hs
    | shutdown =>
      simp only [ParquetPacker.next, hpc, Option.some.injEq] at hs
      exact hs ▸ hended
    | cleanup =>
      simp only [ParquetPacker.next, hpc, Option.some.injEq] at hs
      exact hs ▸ hended
    | _ =>
      simp only [ParquetPacker.next, hpc, Option.some.injEq] at hs
      exact hs ▸ hshutdown
  | raiseStored =>
    cases hpc : st.pc with
    | upload =>
      simp only [Phase, hpc] at hp
      simp only [ParquetPacker.next, hpc, Option.some.injEq] at hs
      obtain rfl := hs
      obtain ⟨hsound, heq⟩ := h.upload hp.1 hp.2.1 hp.2.2
      exact ⟨hsound.goto .., ordered_of_eq heq⟩
    | _ => simp [ParquetPacker.next, hpc] at hs

theorem next_maxNumRows {e : PackerEvent ρ} (hs : st.next e = some st') :
    st'.maxNumRows = st.maxNumRows := by
  unfold ParquetPacker.next at hs
  split at hs <;> split at hs <;> simp only [Option.some.injEq, reduceCtorEq] at hs
  all_goals
    subst hs
    first
      | rfl
      | (cases hu : st.unlink with
        | none => rfl
        | some t =>
          obtain rfl := unlink_eq_some hu
          rfl)

/-- Wherever the packer is interrupted, each object in the bucket is a file with the whole number
of rows, and the objects one after the other are the rows that were written, in their order, but
for the last ones, which are not more than a file has. There is no other file than the current one,
and none when the packer has shut down. -/
theorem uploaded_in_full (maxNumRows : ℤ) (pqfile : String) (bucket : String → Option (List ρ))
    (st : ParquetPacker ρ) (h : (system maxNumRows pqfile bucket).Reachable Fresh st) :
    (∀ u ∈ st.uploads, 0 < maxNumRows ∧ (u.2.length : ℤ) = maxNumRows ∧
      st.bucket u.1 = some u.2) ∧
    (∃ rest, st.written = st.uploads.flatMap Prod.snd ++ rest ∧
      (0 < maxNumRows → (rest.length : ℤ) ≤ maxNumRows)) ∧
    (∀ name, name ≠ st.pqfile → st.files name = none) ∧
    (st.pc = .ended true → ∀ name, st.files name = none) := by
  have hinv : (st.Sound ∧ st.Phase) ∧ st.maxNumRows = maxNumRows := by
    apply h.invariant (I := fun st => (st.Sound ∧ st.Phase) ∧ st.maxNumRows = maxNumRows)
    · rintro _ rfl
      refine ⟨⟨⟨by simp, by simp, ?_⟩, ⟨by simp [rows], by simp, ?_, by simp [rows]⟩, id⟩, rfl⟩
      · intro name hn
        simp [Function.update_of_ne hn]
      · simp [uploaded, rows]
    · rintro st e st' ⟨⟨hs, hp⟩, hm⟩ hok hnext
      exact ⟨step hs hp hok hnext, (next_maxNumRows hnext).trans hm⟩
  obtain ⟨⟨hs, hp⟩, rfl⟩ := hinv
  refine ⟨fun u hu => ⟨(hs.full u hu).1, (hs.full u hu).2, hs.stored u hu⟩, hp.ordered,
    hs.single, ?_⟩
  intro hpc name
  simp only [Phase, hpc] at hp
  by_cases hn : name = st.pqfile
  · rw [hn]
    exact hp.2 trivial
  · exact hs.single name hn

section Interrupted

/-- Files of one row: the first one is uploaded, the second one is not. -/
def interrupted : List (PackerEvent ℕ) :=
  [.row (some 7), .statement, .statement, .statement, .statement, .statement, .statement, .now "b",
    .statement, .statement, .row (some 8), .statement, .raise, .statement, .statement]

def packed (es : List (PackerEvent ℕ)) : ParquetPacker ℕ :=
  TransitionSystem.after ⟨1, "a", true, 0, Function.update (fun _ => none) "a" (some []),
    fun _ => none, [], [], .loop⟩ next es

def freshCheck (st : ParquetPacker ℕ) : PackerEvent ℕ → Bool
  | .now pqfile => pqfile ≠ st.pqfile && pqfile ∉ st.uploads.map Prod.fst
  | _ => true

theorem fresh_of_freshCheck (st : ParquetPacker ℕ) (e : PackerEvent ℕ)
    (h : freshCheck st e = true) : st.Fresh e := by
  cases e with
  | now pqfile => simpa [freshCheck, Fresh] using h
  | _ => trivial

theorem uploaded_in_full_interrupted : (packed interrupted).uploads = [("a", [7])] ∧
    (packed interrupted).bucket "a" = some [7] ∧ (packed interrupted).written = [7, 8] ∧
      ∀ name, (packed interrupted).files name = none := by
  have hr : (system 1 "a" fun _ => none).Reachable Fresh (packed interrupted) :=
    TransitionSystem.reachable_of_admits fresh_of_freshCheck interrupted (.init rfl) (by decide) rfl
  obtain ⟨hbucket, -, -, hfiles⟩ := uploaded_in_full 1 "a" (fun _ => none) (packed interrupted) hr
  exact ⟨rfl, (hbucket ("a", [7]) (by decide)).2.2, rfl, hfiles rfl⟩

end Interrupted

end ParquetPacker
