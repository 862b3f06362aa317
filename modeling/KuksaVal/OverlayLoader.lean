import KuksaVal.Json.Layers
import KuksaVal.Overlays
import Mathlib.Data.List.Sort
import Mathlib.Data.String.Basic

/-! The model that the server starts with: the main file, and over it the overlays of a directory
in the order of their filenames. -/

/-- What a directory has under a filename, and what parsing it gives. -/
structure DirectoryEntry where
  filename : String
  isRegularFile : Bool := true
  parsed : Except String Json.Document

/-- What the path to the overlays leads to; `absent` if the option was not given. -/
inductive Directory where
  | absent
  | notDirectory
  | unreadable (what : String)
  | iterated (entries : List DirectoryEntry)

namespace Directory

def entries : Directory → List DirectoryEntry
  | iterated entries => entries
  | _ => []

/-- Nothing is asked for, or all of it is found. -/
def Found : Directory → Prop
  | absent | iterated _ => True
  | notDirectory | unreadable _ => False

end Directory

namespace OverlayLoader
open Json VssDatabase

/-- A filename from its last dot on. -/
def extension (filename : String) : String :=
  let ending := filename.toList.reverse.takeWhile (· ≠ '.')
  if '.' ∈ filename.toList then .ofList ('.' :: ending.reverse) else ""

def isOverlay (p : DirectoryEntry) : Bool := p.isRegularFile && extension p.filename = ".json"

/-- The path under which a directory is iterated over. -/
def pathOf (overlaydir : String) (p : DirectoryEntry) : String :=
  if overlaydir.toList.getLast? = some '/' then overlaydir ++ p.filename
  else overlaydir ++ "/" ++ p.filename

/-- The order in which overlays are applied. -/
def ByFilename (a b : DirectoryEntry) : Prop := a.filename ≤ b.filename

instance : DecidableRel ByFilename := fun a b =>
  inferInstanceAs (Decidable (a.filename ≤ b.filename))

/-- The overlays among the entries, in the order in which they are applied. -/
def overlayfiles (entries : List DirectoryEntry) : List DirectoryEntry :=
  (entries.filter isOverlay).insertionSort ByFilename

def needDirectory (overlaydir : String) : Exn :=
  ⟨.runtimeError, "Overlays need to be a directory. \"" ++ overlaydir ++ "\" is not."⟩

/-- The overlays of a directory, which need not be one. -/
def gatherOverlays (overlaydir : String) : Directory → Except Exn (List DirectoryEntry)
  | .absent => .ok []
  | .notDirectory => .error (needDirectory overlaydir)
  | .unreadable what => .error ⟨.runtimeError, what⟩
  | .iterated entries => .ok (overlayfiles entries)

/-- A channel with permissions to change the trees. -/
def mockChannel : KuksaChannel := ({} : KuksaChannel).enableModifyTree

def errorLoading (path what : String) : Exn :=
  ⟨.runtimeError, "Error loading \"" ++ path ++ "\": " ++ what⟩

/-- The first overlay that cannot be applied is the last one. -/
def applyOverlays (overlaydir : String) :
    List DirectoryEntry → VssDatabase → Except Exn Unit × VssDatabase
  | [], db => (.ok (), db)
  | p :: overlayfiles, db =>
      match p.parsed with
      | .error what => (.error (errorLoading (pathOf overlaydir p) what), db)
      | .ok overlay =>
          match db.updateJsonTree mockChannel overlay.1 with
          | (.error e, db) => (.error (errorLoading (pathOf overlaydir p) e.what), db)
          | (.ok _, db) => applyOverlays overlaydir overlayfiles db

/-- What is left of the exception with which a file cannot be opened or parsed. -/
def notInitialized : Exn := ⟨.stdException, "std::exception"⟩

/-- The trees of the main file, if it can be opened and parsed. -/
def initFromFile : Except String Document → Except Exn VssDatabase
  | .error _ => .error notInitialized
  | .ok file => initJsonTree file.1

/-- The trees that the server starts with. The directory is read before the main file is. -/
def startup (file : Except String Document) (overlaydir : String) (directory : Directory) :
    Except Exn VssDatabase :=
  match gatherOverlays overlaydir directory with
  | .error e => .error e
  | .ok overlayfiles =>
      match initFromFile file with
      | .error e => .error e
      | .ok db =>
          match applyOverlays overlaydir overlayfiles db with
          | (.error e, _) => .error e
          | (.ok _, db) => .ok db

section Gathered

instance : Std.Total ByFilename := ⟨fun a b => le_total a.filename b.filename⟩

instance : IsTrans DirectoryEntry ByFilename := ⟨fun _ _ _ => le_trans⟩

variable {entries directory : List DirectoryEntry} {p : DirectoryEntry}

theorem mem_overlayfiles : p ∈ overlayfiles entries ↔ p ∈ entries ∧ isOverlay p = true :=
  (List.mem_insertionSort ByFilename).trans List.mem_filter

theorem overlayfiles_pairwise (hn : (entries.map DirectoryEntry.filename).Nodup) :
    (overlayfiles entries).Pairwise fun p q => p.filename < q.filename := by
  have hdistinct : ((overlayfiles entries).map DirectoryEntry.filename).Nodup := by
    have hperm := (List.perm_insertionSort ByFilename (entries.filter isOverlay)).map
      DirectoryEntry.filename
    exact hperm.nodup_iff.mpr (hn.sublist (List.filter_sublist.map _))
  have hle := List.pairwise_insertionSort ByFilename (entries.filter isOverlay)
  exact (hle.and (List.pairwise_map.mp hdistinct)).imp fun h => lt_of_le_of_ne h.1 h.2

/-- The order in which a directory is iterated over does not matter. -/
theorem overlayfiles_perm (hn : (entries.map DirectoryEntry.filename).Nodup)
    (hp : directory.Perm entries) : overlayfiles directory = overlayfiles entries := by
  have hn' : (directory.map DirectoryEntry.filename).Nodup := (hp.map _).nodup_iff.mpr hn
  refine List.Perm.eq_of_pairwise ?_ (overlayfiles_pairwise hn') (overlayfiles_pairwise hn) ?_
  · intro a b _ _ hab hba
    exact absurd hab hba.asymm
  · unfold overlayfiles
    exact (List.perm_insertionSort ..).trans
      ((hp.filter isOverlay).trans (List.perm_insertionSort ..).symm)

/-- The overlays are split by their filenames. -/
theorem overlayfiles_split (hn : (entries.map DirectoryEntry.filename).Nodup)
    (hp : p ∈ entries) (ho : isOverlay p = true) : ∃ before after,
      overlayfiles entries = before ++ p :: after ∧
      (∀ q ∈ before, q ∈ entries ∧ isOverlay q = true ∧ q.filename < p.filename) ∧
      ∀ q ∈ after, q ∈ entries ∧ isOverlay q = true ∧ p.filename < q.filename := by
  obtain ⟨before, after, hsplit⟩ := List.append_of_mem (mem_overlayfiles.mpr ⟨hp, ho⟩)
  have hpair := overlayfiles_pairwise hn
  rw [hsplit, List.pairwise_append] at hpair
  have hmem (q : DirectoryEntry) (hq : q ∈ before ++ p :: after) :
      q ∈ entries ∧ isOverlay q = true := mem_overlayfiles.mp (hsplit ▸ hq)
  refine ⟨before, after, hsplit, ?_, ?_⟩
  · intro q hq
    obtain ⟨hq1, hq2⟩ := hmem q (List.mem_append_left _ hq)
    exact ⟨hq1, hq2, hpair.2.2 q hq p List.mem_cons_self⟩
  · intro q hq
    obtain ⟨hq1, hq2⟩ := hmem q (List.mem_append_right _ (List.mem_cons_of_mem p hq))
    exact ⟨hq1, hq2, (List.pairwise_cons.mp hpair.2.1).1 q hq⟩

end Gathered

section Layers

/-- An overlay with its defaults filled in, or what is wrong with it. -/
def layer (p : DirectoryEntry) : Except String Json :=
  match p.parsed with
  | .error what => .error what
  | .ok overlay =>
      match updateOutcome mockChannel overlay.1 with
      | .error e => .error e.what
      | .ok _ => .ok (jsonTreeAfter mockChannel overlay.1)

/-- The layers of all overlays, or the first one that is not there. -/
def layers : List DirectoryEntry → Except (DirectoryEntry × String) (List Json)
  | [] => .ok []
  | p :: ps =>
      match layer p with
      | .error what => .error (p, what)
      | .ok t => (layers ps).map (t :: ·)

variable {p : DirectoryEntry} {ps : List DirectoryEntry} {t : Json} {ts : List Json}

theorem ordered_layer (h : layer p = .ok t) : t.ordered = true := by
  unfold layer at h
  split at h
  · simp at h
  · rename_i overlay _
    split at h
    · simp at h
    · rename_i u hok
      obtain rfl := Except.ok.inj h
      exact ordered_jsonTreeAfter overlay.2 hok

theorem layers_cons_ok (h : layers (p :: ps) = .ok ts) :
    ∃ t us, layer p = .ok t ∧ layers ps = .ok us ∧ ts = t :: us := by
  unfold layers at h
  cases hp : layer p with
  | error what => simp [hp] at h
  | ok t =>
    rw [hp] at h
    cases hq : layers ps with
    | error e => simp [hq, Except.map] at h
    | ok us =>
      rw [hq] at h
      obtain rfl := Except.ok.inj h
      exact ⟨t, us, rfl, rfl, rfl⟩

theorem layers_append_ok {qs : List DirectoryEntry} (h : layers (ps ++ qs) = .ok ts) :
    ∃ ts₁ ts₂, layers ps = .ok ts₁ ∧ layers qs = .ok ts₂ ∧ ts = ts₁ ++ ts₂ := by
  induction ps generalizing ts with
  | nil => exact ⟨[], ts, rfl, h, rfl⟩
  | cons p ps ih =>
    rw [List.cons_append] at h
    obtain ⟨t, us, hp, hq, rfl⟩ := layers_cons_ok h
    obtain ⟨ts₁, ts₂, h1, h2, rfl⟩ := ih hq
    exact ⟨t :: ts₁, ts₂, by simp [layers, hp, h1, Except.map], h2, rfl⟩

theorem mem_layers (h : layers ps = .ok ts) : ∀ t ∈ ts, ∃ p ∈ ps, layer p = .ok t := by
  induction ps generalizing ts with
  | nil =>
    obtain rfl := Except.ok.inj h
    simp
  | cons p ps ih =>
    obtain ⟨t, us, hp, hq, rfl⟩ := layers_cons_ok h
    intro u hu
    rcases List.mem_cons.mp hu with rfl | hu
    · exact ⟨p, List.mem_cons_self, hp⟩
    · obtain ⟨q, hq, hqu⟩ := ih hq u hu
      exact ⟨q, List.mem_cons_of_mem p hq, hqu⟩

/-- The layers behind that of an overlay are those of the overlays with greater filenames. -/
theorem layers_split {entries : List DirectoryEntry}
    (hn : (entries.map DirectoryEntry.filename).Nodup) (hp : p ∈ entries)
    (ho : isOverlay p = true) (ht : layer p = .ok t)
    (hl : layers (overlayfiles entries) = .ok ts) :
    ∃ before after, ts = before ++ t :: after ∧ ∀ u ∈ after, ∃ q ∈ entries,
      isOverlay q = true ∧ p.filename < q.filename ∧ layer q = .ok u := by
  obtain ⟨before, after, hsplit, -, hlater⟩ := overlayfiles_split hn hp ho
  rw [hsplit] at hl
  obtain ⟨ts₁, us, -, hus, rfl⟩ := layers_append_ok hl
  obtain ⟨t', ts₂, ht', hafter, rfl⟩ := layers_cons_ok hus
  obtain rfl := Except.ok.inj (ht.symm.trans ht')
  refine ⟨ts₁, ts₂, rfl, ?_⟩
  intro u hu
  obtain ⟨q, hq, hqu⟩ := mem_layers hafter u hu
  obtain ⟨hmem, hqo, hlt⟩ := hlater q hq
  exact ⟨q, hmem, hqo, hlt, hqu⟩

/-- The first overlay that is wrong, behind others that are not. -/
theorem layers_eq_error {what : String} : layers ps = .error (p, what) ↔
    ∃ before after, ps = before ++ p :: after ∧ layer p = .error what ∧
      ∀ q ∈ before, ∃ t, layer q = .ok t := by
  induction ps with
  | nil => simp [layers]
  | cons q ps ih =>
    unfold layers
    cases hq : layer q with
    | error w =>
      simp only [Except.error.injEq, Prod.mk.injEq]
      constructor
      · rintro ⟨rfl, rfl⟩
        exact ⟨[], ps, rfl, hq, by simp⟩
      · rintro ⟨before, after, hps, hp, hbefore⟩
        cases before with
        | nil =>
          obtain ⟨rfl, rfl⟩ := List.cons.inj hps
          exact ⟨rfl, Except.error.inj (hq.symm.trans hp)⟩
        | cons b before =>
          obtain ⟨rfl, -⟩ := List.cons.inj hps
          obtain ⟨t, ht⟩ := hbefore q List.mem_cons_self
          simp [hq] at ht
    | ok t =>
      have hmap : (layers ps).map (t :: ·) = .error (p, what) ↔ layers ps = .error (p, what) := by
        cases layers ps <;> simp [Except.map]
      rw [hmap, ih]
      constructor
      · rintro ⟨before, after, rfl, hp, hbefore⟩
        refine ⟨q :: before, after, rfl, hp, ?_⟩
        intro b hb
        rcases List.mem_cons.mp hb with rfl | hb
        · exact ⟨t, hq⟩
        · exact hbefore b hb
      · rintro ⟨before, after, hps, hp, hbefore⟩
        cases before with
        | nil =>
          obtain ⟨rfl, -⟩ := List.cons.inj hps
          simp [hq] at hp
        | cons b before =>
          obtain ⟨rfl, rfl⟩ := List.cons.inj hps
          exact ⟨before, after, rfl, hp, fun b hb => hbefore b (List.mem_cons_of_mem q hb)⟩

end Layers

section Startup

variable {overlaydir : String} {entries directory : List DirectoryEntry} {db : VssDatabase}

/-- The layers go over both trees; the first overlay that is wrong ends it. -/
theorem applyOverlays_eq (overlaydir : String) (ps : List DirectoryEntry)
    (hd : db.dataTree.ordered = true) (hm : db.metaTree.ordered = true) :
    match layers ps with
    | .error (p, what) => (applyOverlays overlaydir ps db).1 =
        .error (errorLoading (pathOf overlaydir p) what)
    | .ok ts => applyOverlays overlaydir ps db =
        (.ok (), ⟨overlays db.dataTree ts, overlays db.metaTree ts⟩) := by
  induction ps generalizing db with
  | nil => rfl
  | cons p ps ih =>
    cases hp : p.parsed with
    | error what => simp [layers, layer, applyOverlays, hp]
    | ok overlay =>
      have hu : db.updateJsonTree mockChannel overlay.1 = _ := updateJsonTree_eq hm hd
      cases ho : updateOutcome mockChannel overlay.1 with
      | error e =>
        rw [ho, if_neg (by simp)] at hu
        simp [layers, layer, applyOverlays, hp, ho, hu]
      | ok _ =>
        rw [ho, if_pos rfl] at hu
        have hlayer : layer p = .ok (jsonTreeAfter mockChannel overlay.1) := by
          simp [layer, hp, ho]
        have ht := ordered_layer hlayer
        have happly : applyOverlays overlaydir (p :: ps) db = applyOverlays overlaydir ps
            ⟨Json.overlay db.dataTree (jsonTreeAfter mockChannel overlay.1),
              Json.overlay db.metaTree (jsonTreeAfter mockChannel overlay.1)⟩ := by
          simp only [applyOverlays, hp, hu]
        have hrest := @ih ⟨_, _⟩ (ordered_overlay hd ht) (ordered_overlay hm ht)
        simp only [layers, hlayer]
        cases hl : layers ps with
        | error e =>
          rw [hl] at hrest
          simpa only [Except.map, happly] using hrest
        | ok ts =>
          rw [hl] at hrest
          simpa only [Except.map, happly, overlays, List.foldl_cons] using hrest

/-- The trees of a main file that is read. -/
theorem initJsonTree_eq_ok {file : Json} (h : initJsonTree file = .ok db) :
    db.metaTree = file ∧ db.dataTree = jsonTreeAfter mockChannel file := by
  unfold initJsonTree at h
  cases hv : file.member "Vehicle" with
  | error e => simp [hv] at h
  | ok vehicle =>
    simp only [hv, applyDefaultValues_eq, resultOf] at h
    cases hr : (defaultsInPlace vehicle).1 with
    | error e => simp [hr, Except.map] at h
    | ok _ =>
      rw [hr] at h
      obtain rfl := Except.ok.inj h
      have ha : mockChannel.authorizedToModifyTree ≠ false := by decide
      refine ⟨rfl, ?_⟩
      simp [jsonTreeAfter, ha, member_eq_ok.mp hv]

theorem gatherOverlays_of_found {directory : Directory} (h : directory.Found) :
    gatherOverlays overlaydir directory = .ok (overlayfiles directory.entries) := by
  cases directory with
  | absent => rfl
  | iterated entries => rfl
  | notDirectory => exact h.elim
  | unreadable what => exact h.elim

/-- If all is found, the main file and the overlays decide. -/
theorem startup_eq (file : Except String Document) (overlaydir : String) (directory : Directory)
    (h : directory.Found) : startup file overlaydir directory =
      match initFromFile file with
      | .error e => .error e
      | .ok db =>
          match layers (overlayfiles directory.entries) with
          | .error (p, what) => .error (errorLoading (pathOf overlaydir p) what)
          | .ok ts => .ok ⟨overlays db.dataTree ts, overlays db.metaTree ts⟩ := by
  unfold startup
  rw [gatherOverlays_of_found h]
  dsimp only
  cases hi : initFromFile file with
  | error e => rfl
  | ok db =>
    have ha : db.Agrees := by
      cases file with
      | error what => simp [initFromFile] at hi
      | ok file => exact agrees_initJsonTree hi
    have happly := applyOverlays_eq overlaydir (overlayfiles directory.entries) ha.data ha.metadata
    cases hl : layers (overlayfiles directory.entries) with
    | error e =>
      rw [hl] at happly
      dsimp only at happly ⊢
      generalize applyOverlays overlaydir (overlayfiles directory.entries) db = r at happly ⊢
      obtain ⟨outcome, db'⟩ := r
      dsimp only at happly
      rw [happly]
    | ok ts =>
      rw [hl] at happly
      dsimp only at happly ⊢
      rw [happly]

/-- A server that starts has the layers over both trees of the main file. -/
theorem startup_eq_ok {file : Document}
    (h : startup (.ok file) overlaydir (.iterated entries) = .ok db) :
    ∃ ts, layers (overlayfiles entries) = .ok ts ∧
      db.dataTree = overlays (jsonTreeAfter mockChannel file.1) ts ∧
        db.metaTree = overlays file.1 ts := by
  rw [startup_eq _ _ (.iterated entries) trivial] at h
  dsimp only [initFromFile, Directory.entries] at h
  cases hi : initJsonTree file.1 with
  | error e => simp [hi] at h
  | ok start =>
    obtain ⟨hmeta, hdata⟩ := initJsonTree_eq_ok hi
    cases hl : layers (overlayfiles entries) with
    | error e => simp [hi, hl] at h
    | ok ts =>
      simp only [hi, hl] at h
      obtain rfl := Except.ok.inj h
      exact ⟨ts, rfl, hdata ▸ rfl, hmeta ▸ rfl⟩

/-- In whatever order the directory is iterated over, the server starts with the same trees: at
each place the one has that the last overlay by filename says is there, and where no overlay says
anything the main file. -/
theorem startup_layered (file : Document) (overlaydir : String)
    (entries directory : List DirectoryEntry)
    (hn : (entries.map DirectoryEntry.filename).Nodup) (hp : directory.Perm entries) :
    startup (.ok file) overlaydir (.iterated directory) =
      startup (.ok file) overlaydir (.iterated entries) ∧
    ∀ db, startup (.ok file) overlaydir (.iterated entries) = .ok db → ∀ keys : List String,
      (∀ p ∈ entries, isOverlay p = true → ∀ t v, layer p = .ok t →
        t.at? (keys.map .key) = some v → v.isScalar = true →
        (∀ q ∈ entries, isOverlay q = true → p.filename < q.filename →
          ∀ u, layer q = .ok u → silentAt keys u = true) →
        db.dataTree.at? (keys.map .key) = some v ∧ db.metaTree.at? (keys.map .key) = some v) ∧
      ((∀ p ∈ entries, isOverlay p = true → ∀ t, layer p = .ok t → silentAt keys t = true) →
        db.dataTree.at? (keys.map .key) =
            (jsonTreeAfter mockChannel file.1).at? (keys.map .key) ∧
          db.metaTree.at? (keys.map .key) = file.1.at? (keys.map .key)) := by
  refine ⟨?_, ?_⟩
  · rw [startup_eq _ _ (.iterated directory) trivial, startup_eq _ _ (.iterated entries) trivial]
    dsimp only [Directory.entries]
    rw [overlayfiles_perm hn hp]
  intro db hdb keys
  obtain ⟨ts, hl, hdata, hmeta⟩ := startup_eq_ok hdb
  rw [hdata, hmeta]
  refine ⟨?_, ?_⟩
  · intro p hmem ho t v ht hat hv hafter
    obtain ⟨before, after, rfl, hlater⟩ := layers_split hn hmem ho ht hl
    have hlayer (u : Json) (hu : u ∈ after) : u.ordered = true ∧ silentAt keys u = true := by
      obtain ⟨q, hq, hqo, hlt, hqu⟩ := hlater u hu
      exact ⟨ordered_layer hqu, hafter q hq hqo hlt u hqu⟩
    have hlast (s : Json) : (overlays s (before ++ t :: after)).at? (keys.map .key) = some v :=
      overlays_at?_of_last (ordered_layer ht) (fun u hu => (hlayer u hu).1) hat hv
        (fun u hu => (hlayer u hu).2) s
    exact ⟨hlast _, hlast _⟩
  · intro hall
    have hlayer (u : Json) (hu : u ∈ ts) : u.ordered = true ∧ silentAt keys u = true := by
      obtain ⟨q, hq, hqu⟩ := mem_layers hl u hu
      obtain ⟨hmem, hqo⟩ := mem_overlayfiles.mp hq
      exact ⟨ordered_layer hqu, hall q hmem hqo u hqu⟩
    have hsame := overlays_at?_of_silentAt (fun u hu => (hlayer u hu).1)
      (fun u hu => (hlayer u hu).2)
    exact ⟨hsame _, hsame _⟩

/-- A model with one attribute. -/
def idModel (default : String) : Json :=
  .obj [("Vehicle", .obj [("children", .obj [("Id",
    .obj [("default", .str default), ("type", .str "attribute")])])])]

def idFile : Document := ⟨idModel "5", by decide +kernel⟩

def overlaySix : DirectoryEntry :=
  ⟨"a.json", true, .ok ⟨idModel "6", by decide +kernel⟩⟩

def overlaySeven : DirectoryEntry :=
  ⟨"b.json", true, .ok ⟨idModel "7", by decide +kernel⟩⟩

/-- The file that was found first is applied last. -/
theorem startup_layered_default : ∃ db,
    startup (.ok idFile) "overlays" (.iterated [overlaySeven, overlaySix]) = .ok db ∧
      db.dataTree.at? (["Vehicle", "children", "Id", "value"].map .key) = some (.str "7") := by
  have hstart : (startup (.ok idFile) "overlays"
      (.iterated [overlaySeven, overlaySix])).toOption.isSome = true := by decide +kernel
  obtain ⟨db, hdb⟩ : ∃ db, startup (.ok idFile) "overlays"
      (.iterated [overlaySeven, overlaySix]) = .ok db := by
    cases h : startup (.ok idFile) "overlays" (.iterated [overlaySeven, overlaySix]) with
    | error e => simp [h, Except.toOption] at hstart
    | ok db => exact ⟨db, rfl⟩
  refine ⟨db, hdb, ?_⟩
  have hlayer : layer (overlaySeven) = .ok (.obj [("Vehicle", .obj [("children",
      .obj [("Id", .obj [("default", .str "7"), ("type", .str "attribute"),
        ("value", .str "7")])])])]) := by decide +kernel
  obtain ⟨hsame, hat⟩ := startup_layered idFile "overlays"
    [overlaySix, overlaySeven] [overlaySeven, overlaySix]
    (by decide) (.swap ..)
  refine ((hat db (hsame ▸ hdb) _).1 (overlaySeven) (by simp) (by decide +kernel) _ _
    hlayer (by decide +kernel) rfl ?_).1
  intro q hq _ hlt
  simp only [List.mem_cons, List.not_mem_nil, or_false] at hq
  rcases hq with rfl | rfl
  · exact absurd hlt (by decide)
  · exact absurd hlt (lt_irrefl _)

/-- The first overlay by filename that is wrong. -/
structure FirstWrong (entries : List DirectoryEntry) (p : DirectoryEntry) (what : String) :
    Prop where
  mem : p ∈ entries
  overlay : isOverlay p = true
  wrong : layer p = .error what
  first : ∀ q ∈ entries, isOverlay q = true → q.filename < p.filename → ∃ t, layer q = .ok t

theorem layers_eq_error_iff (hn : (entries.map DirectoryEntry.filename).Nodup)
    {p : DirectoryEntry} {what : String} :
    layers (overlayfiles entries) = .error (p, what) ↔ FirstWrong entries p what := by
  rw [layers_eq_error]
  constructor
  · rintro ⟨before, after, hsplit, hwrong, hbefore⟩
    have hmem : p ∈ overlayfiles entries := hsplit ▸ List.mem_append_right _ List.mem_cons_self
    obtain ⟨hp, ho⟩ := mem_overlayfiles.mp hmem
    refine ⟨hp, ho, hwrong, ?_⟩
    intro q hq hqo hlt
    have hpair := overlayfiles_pairwise hn
    have hqmem := mem_overlayfiles.mpr ⟨hq, hqo⟩
    rw [hsplit] at hpair hqmem
    have hlater := (List.pairwise_cons.mp (List.pairwise_append.mp hpair).2.1).1
    rcases List.mem_append.mp hqmem with hq | hq
    · exact hbefore q hq
    · rcases List.mem_cons.mp hq with rfl | hq
      · exact absurd hlt (lt_irrefl _)
      · exact absurd hlt (hlater q hq).asymm
  · rintro ⟨hp, ho, hwrong, hfirst⟩
    obtain ⟨before, after, hsplit, hlt, -⟩ := overlayfiles_split hn hp ho
    exact ⟨before, after, hsplit, hwrong, fun q hq =>
      hfirst q (hlt q hq).1 (hlt q hq).2.1 (hlt q hq).2.2⟩

/-- The error of the main file, or of the first overlay that is wrong. -/
theorem startup_eq_error_of_found {file : Except String Document} {directory : Directory}
    (hf : directory.Found) (hn : (directory.entries.map DirectoryEntry.filename).Nodup) (e : Exn) :
    startup file overlaydir directory = .error e ↔
      initFromFile file = .error e ∨ (∃ db, initFromFile file = .ok db) ∧
        ∃ p what, FirstWrong directory.entries p what ∧
          e = errorLoading (pathOf overlaydir p) what := by
  rw [startup_eq file overlaydir directory hf]
  cases hi : initFromFile file with
  | error e' => simp
  | ok db =>
    simp only [← layers_eq_error_iff hn]
    cases hl : layers (overlayfiles directory.entries) with
    | ok ts => simp
    | error r =>
      obtain ⟨p, what⟩ := r
      constructor
      · intro he
        exact .inr ⟨⟨db, rfl⟩, p, what, rfl, (Except.error.inj he).symm⟩
      · rintro (he | ⟨-, p', what', hp, rfl⟩)
        · simp at he
        · obtain ⟨rfl, rfl⟩ := Prod.mk.inj (Except.error.inj hp)
          rfl

/-- The server does not start exactly when the path to the overlays is no directory or cannot be
iterated over, the main file cannot be read or its defaults not be filled in, or an overlay is
wrong; and it is the first of these that is reported, of the overlays the first by filename. -/
theorem startup_eq_error_iff (file : Except String Document) (overlaydir : String)
    (directory : Directory) (hn : (directory.entries.map DirectoryEntry.filename).Nodup)
    (e : Exn) :
    startup file overlaydir directory = .error e ↔
      directory = .notDirectory ∧ e = needDirectory overlaydir ∨
      (∃ what, directory = .unreadable what ∧ e = ⟨.runtimeError, what⟩) ∨
      directory.Found ∧ ((∃ what, file = .error what) ∧ e = notInitialized ∨
        ∃ document, file = .ok document ∧ (initJsonTree document.1 = .error e ∨
          (∃ db, initJsonTree document.1 = .ok db) ∧
            ∃ p what, FirstWrong directory.entries p what ∧
              e = errorLoading (pathOf overlaydir p) what)) := by
  by_cases hf : directory.Found
  · rw [startup_eq_error_of_found hf hn]
    have hno : directory ≠ .notDirectory ∧ ∀ what, directory ≠ .unreadable what := by
      cases directory <;> simp_all [Directory.Found]
    cases file with
    | error what =>
      simp only [hno, hf, initFromFile, Except.error.injEq, exists_eq', reduceCtorEq, false_and,
        exists_false, false_or, or_false, true_and]
      exact eq_comm
    | ok document => simp [initFromFile, hno, hf]
  · cases directory with
    | notDirectory =>
      simp only [startup, gatherOverlays, Directory.Found, Except.error.injEq, true_and, false_and,
        reduceCtorEq, exists_false, or_false]
      exact eq_comm
    | unreadable what =>
      simp only [startup, gatherOverlays, Directory.Found, Except.error.injEq, reduceCtorEq,
        Directory.unreadable.injEq, false_and, false_or, or_false, exists_eq_left']
      exact eq_comm
    | absent => exact absurd trivial hf
    | iterated entries => exact absurd trivial hf

/-- A file that cannot be parsed is reported if it is the first of the overlays, and without its
name if it is the main file. -/
theorem startup_eq_error_iff_parse :
    startup (.ok idFile) "overlays" (.iterated
      [⟨"d.json", true, .error "Unexpected end of file"⟩,
        ⟨"c.json", true, .error "Unexpected end of file"⟩, overlaySix]) =
      .error ⟨.runtimeError, "Error loading \"overlays/c.json\": Unexpected end of file"⟩ ∧
    startup (.error "Unexpected end of file") "overlays" (.iterated [overlaySix]) =
      .error ⟨.stdException, "std::exception"⟩ := by
  refine ⟨(startup_eq_error_iff _ _ _ (by decide) _).mpr (.inr (.inr ⟨trivial, .inr ⟨idFile, rfl,
    .inr ⟨⟨⟨_, _⟩, rfl⟩, ⟨"c.json", true, .error "Unexpected end of file"⟩,
      "Unexpected end of file", ?_, by decide +kernel⟩⟩⟩)), ?_⟩
  · refine ⟨by simp [Directory.entries], by decide +kernel, rfl, ?_⟩
    intro q hq _ hlt
    simp only [Directory.entries, List.mem_cons, List.not_mem_nil, or_false] at hq
    rcases hq with rfl | rfl | rfl
    · exact absurd hlt (by decide)
    · exact absurd hlt (by decide)
    · exact ⟨_, rfl⟩
  · exact (startup_eq_error_iff _ _ _ (by decide) _).mpr (.inr (.inr ⟨trivial, .inl ⟨⟨_, rfl⟩,
      rfl⟩⟩))

end Startup

end OverlayLoader
