import RfpPlatform.ErasureCompleteness
import RfpPlatform.FoldRuns
import RfpPlatform.Submissions

namespace RfpPlatform.DropFolders

open ErasureCompleteness ExceptRules Submissions

section Folders

/-- `provision_drop_folder`, up to the folder that it makes. -/
def provisionDropFolder (dropsRoot : Path) (rfpId vendorId : String) : Except Exn Path := do
  ensureSafeId rfpId "rfp_id"
  ensureSafeId vendorId "vendor_id"
  return resolve (dropsRoot ++ [rfpId, vendorId])

/-- `path.resolve().relative_to(drops_root)` -/
def relativeTo (dropsRoot path : Path) : Option Path :=
  let resolved := resolve path
  if dropsRoot.isPrefixOf resolved then some (resolved.drop dropsRoot.length) else none

/-- What the watcher makes of a file on disk. -/
def attributed (dropsRoot path : Path) : Option (String × Option VendorId) :=
  parseDropPath (relativeTo dropsRoot path)

structure Disk where
  dirs : List Path
  files : List Path

def Disk.exists (d : Disk) (p : Path) : Bool := d.dirs.contains p || d.files.contains p

/-- `mkdir(parents=True, exist_ok=True)` -/
def Disk.mkdir (d : Disk) (p : Path) : Disk :=
  { d with dirs := d.dirs ++ p.inits.filter (fun q => !d.dirs.contains q) }

/-- One round of `_delete_drop_folders`, with the number of the folders removed. -/
def removeFolder (dropsRoot : Path) (acc : Disk × Nat) (rfpId : String) : Disk × Nat :=
  if isInside dropsRoot rfpId && acc.1.exists (dropFolder dropsRoot rfpId) then
    (⟨deleteDropFolder dropsRoot rfpId [] acc.1.dirs,
      deleteDropFolder dropsRoot rfpId [] acc.1.files⟩, acc.2 + 1)
  else acc

def deleteDropFolders (dropsRoot : Path) (rfpIds : List String) (d : Disk) : Disk × Nat :=
  rfpIds.foldl (removeFolder dropsRoot) (d, 0)

inductive Op
  | provision (rfpId vendorId : String)
  | upload (rfpId vendorId : String) (below : Path)
  | erase (rfpIds : List String)

/-- A file is uploaded into a folder that is there. -/
def apply (dropsRoot : Path) (d : Disk) : Op → Disk
  | .provision rfpId vendorId =>
      match provisionDropFolder dropsRoot rfpId vendorId with
      | .error _ => d
      | .ok folder => d.mkdir folder
  | .upload rfpId vendorId below =>
      let folder := resolve (dropsRoot ++ [rfpId, vendorId])
      if d.dirs.contains folder then
        let parent := d.mkdir (folder ++ below.dropLast)
        { parent with files := parent.files ++ [folder ++ below] }
      else d
  | .erase rfpIds => (deleteDropFolders dropsRoot rfpIds d).1

end Folders

section Names

variable {dropsRoot path below : Path} {rfpId vendorId c : String}

/-- A name of a folder or of a file, that stands for itself. -/
def Proper (c : String) : Prop := c ≠ "" ∧ c ≠ "." ∧ c ≠ ".."

instance (c : String) : Decidable (Proper c) := inferInstanceAs (Decidable (_ ∧ _ ∧ _))

theorem resolve_append_proper (hc : Proper c) : resolve (path ++ [c]) = resolve path ++ [c] := by
  obtain ⟨hempty, hdot, hdots⟩ := hc
  rw [resolve, List.foldl_append, List.foldl_cons, List.foldl_nil,
    if_neg (not_or.mpr ⟨hempty, hdot⟩), if_neg hdots, ← resolve]

theorem resolve_append (h : ∀ c ∈ below, Proper c) :
    resolve (path ++ below) = resolve path ++ below := by
  induction below using List.reverseRecOn with
  | nil => rw [List.append_nil, List.append_nil]
  | append_singleton below c ih =>
      have hc := h c (List.mem_append_right below List.mem_cons_self)
      rw [← List.append_assoc, resolve_append_proper hc,
        ih fun d hd => h d (List.mem_append_left _ hd), List.append_assoc]

theorem resolve_of_proper (h : ∀ c ∈ path, Proper c) : resolve path = path :=
  @resolve_append [] path h

theorem proper_of_mem_resolve (hc : c ∈ resolve path) : Proper c := by
  induction path using List.reverseRecOn with
  | nil => cases hc
  | append_singleton path d ih =>
      rw [resolve, List.foldl_append, List.foldl_cons, List.foldl_nil, ← resolve] at hc
      by_cases hskip : d = "" ∨ d = "."
      · rw [if_pos hskip] at hc
        exact ih hc
      · rw [if_neg hskip] at hc
        by_cases hup : d = ".."
        · rw [if_pos hup] at hc
          exact ih (List.mem_of_mem_dropLast hc)
        · rw [if_neg hup] at hc
          rcases List.mem_append.mp hc with hc | hc
          · exact ih hc
          · obtain rfl := List.mem_singleton.mp hc
            exact ⟨fun h => hskip (Or.inl h), fun h => hskip (Or.inr h), hup⟩

theorem proper_of_safe (hsafe : isSafeId c = true) (hdot : c ≠ ".") (hdots : c ≠ "..") :
    Proper c := by
  refine ⟨fun hempty => ?_, hdot, hdots⟩
  rw [hempty] at hsafe
  revert hsafe
  decide

end Names

section Watched

variable {dropsRoot path below folder : Path} {rfpId vendorId : String}

theorem parseDropPath_eq_some {parts : Option Path} :
    parseDropPath parts = some (rfpId, some vendorId) ↔
      ∃ name rest, parts = some (rfpId :: vendorId :: name :: rest) := by
  match parts with
  | none => simp [parseDropPath]
  | some [] => simp [parseDropPath]
  | some [_] => simp [parseDropPath]
  | some [_, _] => simp [parseDropPath]
  | some (a :: b :: c :: rest) => simp [parseDropPath]

theorem relativeTo_eq_some {parts : Path} (h : relativeTo dropsRoot path = some parts) :
    resolve path = dropsRoot ++ parts := by
  obtain ⟨hpre, hparts⟩ := Option.ite_none_right_eq_some.mp h
  obtain rfl := Option.some.inj hparts
  exact (List.prefix_iff_eq_append.mp (List.isPrefixOf_iff_prefix.mp hpre)).symm

theorem relativeTo_append {parts : Path} (h : resolve path = dropsRoot ++ parts) :
    relativeTo dropsRoot path = some parts := by
  rw [relativeTo, h, if_pos (List.isPrefixOf_iff_prefix.mpr (List.prefix_append _ _)),
    List.drop_left]

theorem provision_eq_ok (h : provisionDropFolder dropsRoot rfpId vendorId = .ok folder) :
    isSafeId rfpId = true ∧ isSafeId vendorId = true ∧
      folder = resolve (dropsRoot ++ [rfpId, vendorId]) := by
  obtain ⟨_, hrfp, h⟩ := bind_eq_ok.mp h
  obtain ⟨_, hvendor, h⟩ := bind_eq_ok.mp h
  exact ⟨Bool.eq_true_of_not_eq_false (raiseIf_eq_ok.mp hrfp),
    Bool.eq_true_of_not_eq_false (raiseIf_eq_ok.mp hvendor), (pure_eq_ok.mp h).symm⟩

theorem attributed_of_proper (hroot : ∀ c ∈ dropsRoot, Proper c) (hrfp : Proper rfpId)
    (hvendor : Proper vendorId) (hne : below ≠ []) (hbelow : ∀ c ∈ below, Proper c) :
    attributed dropsRoot (dropsRoot ++ rfpId :: vendorId :: below) =
      some (rfpId, some vendorId) := by
  have hproper : ∀ c ∈ rfpId :: vendorId :: below, Proper c := by
    simp only [List.forall_mem_cons]
    exact ⟨hrfp, hvendor, hbelow⟩
  have hresolve : resolve (dropsRoot ++ rfpId :: vendorId :: below) =
      dropsRoot ++ rfpId :: vendorId :: below := by
    rw [resolve_append hproper, resolve_of_proper hroot]
  obtain ⟨name, rest, rfl⟩ := List.exists_cons_of_ne_nil hne
  exact parseDropPath_eq_some.mpr ⟨name, rest, relativeTo_append hresolve⟩

/-- The folder of a vendor and the watcher agree on whose a file is, but for the two ids that the
pattern of the configuration accepts and that stand for other folders. -/
theorem attributed_iff (hroot : ∀ c ∈ dropsRoot, Proper c)
    (hfolder : provisionDropFolder dropsRoot rfpId vendorId = .ok folder) (hne : below ≠ [])
    (hbelow : ∀ c ∈ below, Proper c) :
    attributed dropsRoot (folder ++ below) = some (rfpId, some vendorId) ↔
      rfpId ∉ [".", ".."] ∧ vendorId ∉ [".", ".."] := by
  obtain ⟨hrfp, hvendor, rfl⟩ := provision_eq_ok hfolder
  constructor
  · intro h
    obtain ⟨name, rest, hparts⟩ := parseDropPath_eq_some.mp h
    have hresolve := relativeTo_eq_some hparts
    have hmem : ∀ c ∈ rfpId :: vendorId :: name :: rest, Proper c := fun c hc =>
      proper_of_mem_resolve (hresolve ▸ List.mem_append_right dropsRoot hc)
    obtain ⟨hr, hv, _⟩ := List.forall_mem_cons.mp hmem |>.imp id List.forall_mem_cons.mp
    exact ⟨by simp [hr.2.1, hr.2.2], by simp [hv.2.1, hv.2.2]⟩
  · rintro ⟨hr, hv⟩
    simp only [List.mem_cons, List.not_mem_nil, or_false, not_or] at hr hv
    have hrp := proper_of_safe hrfp hr.1 hr.2
    have hvp := proper_of_safe hvendor hv.1 hv.2
    have hresolve : resolve (dropsRoot ++ [rfpId, vendorId]) = dropsRoot ++ [rfpId, vendorId] := by
      rw [resolve_append (by simp [hrp, hvp]), resolve_of_proper hroot]
    rw [hresolve, List.append_assoc]
    exact attributed_of_proper hroot hrp hvp hne hbelow

def dropsOf : Path := ["srv", "drops"]

theorem proposal_attributed :
    attributed dropsOf (["srv", "drops", "rfp-1", "acme"] ++ ["bid.pdf"]) =
      some ("rfp-1", some "acme") := by
  have hroot : ∀ c ∈ dropsOf, Proper c := by decide
  have hfolder : provisionDropFolder dropsOf "rfp-1" "acme" =
      .ok ["srv", "drops", "rfp-1", "acme"] := by decide +kernel
  exact (attributed_iff hroot hfolder (by decide) (by decide)).mpr (by decide)

end Watched

section OnDisk

open FoldRuns

variable {dropsRoot p q below : Path} {d : Disk} {rfpId vendorId : String} {rfpIds : List String}
  {history : List Op} {op : Op}

theorem mem_deleteDropFolder {files : List Path} : q ∈ deleteDropFolder dropsRoot rfpId [] files ↔
    q ∈ files ∧ ¬ (isInside dropsRoot rfpId = true ∧ dropFolder dropsRoot rfpId <+: q) := by
  by_cases hin : isInside dropsRoot rfpId = true
  · simp [deleteDropFolder, hin, under, List.mem_filter, ← List.isPrefixOf_iff_prefix]
  · simp [deleteDropFolder, hin]

/-- An id that the pattern accepts and that is the name of a folder of its own. -/
def Plain (id : String) : Prop := isSafeId id = true ∧ Proper id

/-- The operations with ids of that kind, where a file has a name. -/
def Op.plain : Op → Prop
  | .provision rfpId vendorId => Plain rfpId ∧ Plain vendorId
  | .upload rfpId vendorId below => Plain rfpId ∧ Plain vendorId ∧ below ≠ [] ∧
      ∀ c ∈ below, Proper c
  | .erase rfpIds => ∀ id ∈ rfpIds, Plain id

variable (hroot : ∀ c ∈ dropsRoot, Proper c)
include hroot

end OnDisk

end RfpPlatform.DropFolders
