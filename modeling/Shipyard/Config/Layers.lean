import Shipyard.Lib.Layers
import Shipyard.MergeSteward.Checks

/-!
# Configuration layers

The layers of `config.rs`: the machine-global file, the tracked project file at a
git ref, and the local overlay, each merged over the one before. The tracked layer
is stripped of the keys that only the machine may set. Stripping removes the keys
themselves; a value that is not a table in the place of one of their parents stays,
and replaces the whole parent table of the machine.
-/

namespace Shipyard.Config

open Lib List
open MergeSteward (trim)

/-- A TOML value that is not a table. -/
inductive TomlLeaf where
  | string (value : String)
  | integer (value : Int)
  | float (text : String)
  | boolean (value : Bool)
  | datetime (text : String)
  | array (items : List (Tree String TomlLeaf))

abbrev TomlValue := Tree String TomlLeaf

/-- `toml::Table`, a map ordered by key. -/
abbrev Table := Layer String TomlLeaf

def machineOnlyKeys : List String :=
  ["github.auth", "host_class", "pr_watch.digest.command", "pr_watch.handback.cmux_path",
    "pr_watch.handback.hosts"]

/-- The parts of a dotted key. -/
def keyParts (dottedKey : String) : List String :=
  (dottedKey.toList.splitOn '.').map String.ofList

def tableGet (table : Table) (dottedKey : String) : Option TomlValue :=
  table.get (keyParts dottedKey)

def deepMerge (base overlay : Table) : Table := base.merge overlay

def removeDotted (table : Table) (dottedKey : String) : Table :=
  match (keyParts dottedKey).getLast? with
  | some leaf => table.remove (keyParts dottedKey).dropLast leaf
  | none => table

/-! ## Reading the layers -/

inductive RuntimeMode where
  | isolated
  | shipyard
deriving DecidableEq, Repr

def trackedProjectDirName : RuntimeMode → String
  | .isolated => ".shipyard"
  | .shipyard => ".shipyard"

inductive ConfigLoadError where
  | io (path source : String)
  | parse (path source : String)
deriving DecidableEq, Repr

def ConfigLoadError.message : ConfigLoadError → String
  | .io path source => "failed to read config file " ++ path ++ ": " ++ source
  | .parse path source => "failed to parse config file " ++ path ++ ": " ++ source

/-- What `git show` prints, decoded. -/
structure GitOutput where
  success : Bool
  stdout : String
  stderr : String

/-- The file system, the TOML parser and `git show` in the checkout. -/
structure ConfigEnv where
  pathExists : String → Bool
  readToString : String → Except String String
  parse : String → Except String Table
  gitShow : String → Except String GitOutput

inductive LocalOverlaySource where
  | none
  | direct
  | worktreeFallback
deriving DecidableEq, Repr

inductive ProjectLayerSource where
  | gitRef (gitRef : String)
  | workingTreeFallback (gitRef reason : String)
deriving DecidableEq, Repr

structure LoadedConfig where
  data : Table
  globalDir : String
  projectDir : Option String := none
  localDir : Option String := none
  localOverlaySource : LocalOverlaySource := .none

def LoadedConfig.get (config : LoadedConfig) (dottedKey : String) : Option TomlValue :=
  tableGet config.data dottedKey

def configFile (dir : String) : String := dir ++ "/config.toml"

variable (env : ConfigEnv) (table : Table) (dottedKey : String) {removed : List String}

def readLayer (path : String) : Except ConfigLoadError (Option Table) :=
  if !env.pathExists path then .ok none
  else
    match env.readToString path with
    | .error source => .error (.io path source)
    | .ok contents =>
      match env.parse contents with
      | .error source => .error (.parse path source)
      | .ok table => .ok (some table)

def mergeIfPresent (base : Table) (path : String) : Except ConfigLoadError Table :=
  match readLayer env path with
  | .error error => .error error
  | .ok none => .ok base
  | .ok (some parsed) => .ok (deepMerge base parsed)

/-- The first line of a text, trimmed. -/
def firstLine (text : String) : String :=
  trim (String.ofList (text.toList.takeWhile (· ≠ '\n')))

/-- The tracked project table at a git ref, or the reason why it cannot be used. -/
def projectAtRef (spec : String) : Except String Table :=
  match env.gitShow spec with
  | .error error => .error ("could not run git show " ++ spec ++ ": " ++ error)
  | .ok output =>
    if !output.success then
      .error ("git show " ++ spec ++ " failed: " ++ firstLine output.stderr)
    else
      match env.parse output.stdout with
      | .error error => .error (spec ++ " is not valid TOML: " ++ error)
      | .ok table => .ok table

/-- A tracked table without the keys that only the machine may set. -/
def stripMachineOnly (project : Table) : Table :=
  machineOnlyKeys.foldl removeDotted project

/-- The machine-global file, the tracked table and the local overlay, merged. -/
def layerData (config : LoadedConfig) (project : Table) : Except ConfigLoadError Table :=
  match mergeIfPresent env Layer.empty (configFile config.globalDir) with
  | .error error => .error error
  | .ok data =>
    match config.localDir with
    | some localDir => mergeIfPresent env (deepMerge data project) (configFile localDir)
    | none => .ok (deepMerge data project)

def projectSpec (mode : RuntimeMode) (gitRef : String) : String :=
  gitRef ++ ":" ++ trackedProjectDirName mode ++ "/config.toml"

def withProjectLayerAtRef (config : LoadedConfig) (mode : RuntimeMode) (gitRef : String) :
    LoadedConfig × ProjectLayerSource :=
  match projectAtRef env (projectSpec mode gitRef) with
  | .error reason => (config, .workingTreeFallback gitRef reason)
  | .ok project =>
    match layerData env config (stripMachineOnly project) with
    | .error error => (config, .workingTreeFallback gitRef error.message)
    | .ok data => ({ config with data }, .gitRef gitRef)

/-! ## Stripping -/

theorem keyParts_ne_nil : keyParts dottedKey ≠ [] := by
  unfold keyParts
  simp [splitOn_ne_nil]

theorem removeDotted_eq : ∃ parents leaf, keyParts dottedKey = parents ++ [leaf] ∧
      removeDotted table dottedKey = table.remove parents leaf := by
  have hlast := getLast?_eq_some_getLast (keyParts_ne_nil dottedKey)
  refine ⟨_, _, (dropLast_append_getLast (keyParts_ne_nil dottedKey)).symm, ?_⟩
  rw [removeDotted, hlast]

theorem get_removeDotted_self : tableGet (removeDotted table dottedKey) dottedKey = none := by
  obtain ⟨parents, leaf, hparts, hremove⟩ := removeDotted_eq table dottedKey
  rw [tableGet, hremove, hparts]
  exact Tree.pointer_removeAt_self leaf parents table.entries

variable {key : String}

theorem get_removeDotted_of_none {table : Table} (removed : String)
    (hnone : tableGet table key = none) : tableGet (removeDotted table removed) key = none := by
  obtain ⟨parents, leaf, -, hremove⟩ := removeDotted_eq table removed
  rw [tableGet, hremove]
  exact Tree.pointer_removeAt_of_none leaf parents hnone

theorem hides_removeDotted {key removed : String}
    (happart : keyParts removed <+: keyParts key → keyParts key = keyParts removed) :
    (removeDotted table removed).hides (keyParts key) = table.hides (keyParts key) := by
  obtain ⟨parents, leaf, hparts, hremove⟩ := removeDotted_eq table removed
  rw [hparts] at happart
  rw [hremove]
  exact Tree.blocks_removeAt happart table.entries

theorem get_foldl_of_none (removed : List String) {table : Table}
    (hnone : tableGet table key = none) :
    tableGet (removed.foldl removeDotted table) key = none := by
  induction removed generalizing table with
  | nil => exact hnone
  | cons first rest ih => exact ih (get_removeDotted_of_none first hnone)

theorem get_foldl_of_mem (hkey : key ∈ removed) (table : Table) :
    tableGet (removed.foldl removeDotted table) key = none := by
  induction removed generalizing table with
  | nil => cases hkey
  | cons first rest ih =>
    rcases mem_cons.mp hkey with rfl | hrest
    · exact get_foldl_of_none rest (get_removeDotted_self table key)
    · exact ih hrest (removeDotted table first)

theorem hides_foldl
    (happart : ∀ other ∈ removed, keyParts other <+: keyParts key → keyParts key = keyParts other) :
    (removed.foldl removeDotted table).hides (keyParts key) = table.hides (keyParts key) := by
  induction removed generalizing table with
  | nil => rfl
  | cons first rest ih =>
    obtain ⟨hfirst, hrest⟩ := forall_mem_cons.mp happart
    rw [foldl_cons, ih (removeDotted table first) hrest, hides_removeDotted table hfirst]

/-- No machine-only key stands below another. -/
theorem machineOnlyKeys_apart : ∀ key ∈ machineOnlyKeys, ∀ other ∈ machineOnlyKeys,
    keyParts other <+: keyParts key → keyParts key = keyParts other := by
  decide +kernel

/-! ## What the layers say at a machine-only key -/

/-- The three layers are read. -/
structure Reads (env : ConfigEnv) (config : LoadedConfig) (mode : RuntimeMode) (gitRef : String)
    (global : Option Table) (project : Table) (overlay : Option Table) : Prop where
  global : readLayer env (configFile config.globalDir) = .ok global
  project : projectAtRef env (projectSpec mode gitRef) = .ok project
  overlay : match config.localDir with
    | some localDir => readLayer env (configFile localDir) = .ok overlay
    | none => overlay = none

/-- The machine-global table shows through the overlay at a key. -/
def MachineSets (global overlay : Table) (key : String) : Prop :=
  tableGet (deepMerge global overlay) key ≠ tableGet overlay key

/-- What the layers say at a machine-only key: the overlay decides, then the
machine, unless the tracked table has a leaf on the way. -/
def layeredValue (global project overlay : Table) (key : String) : Option TomlValue :=
  if overlay.hides (keyParts key) then none
  else
    Tree.lay (if project.hides (keyParts key) then none else tableGet global key)
      (tableGet overlay key)

section Layered

variable {env : ConfigEnv} {config : LoadedConfig} {mode : RuntimeMode} {gitRef key : String}
  {global overlay : Option Table} {project : Table}

theorem tableGet_deepMerge (base overlay : Table) (key : String) :
    tableGet (deepMerge base overlay) key =
      if overlay.hides (keyParts key) then none
      else Tree.lay (tableGet base key) (tableGet overlay key) :=
  Layer.get_merge base overlay (keyParts key)

theorem tableGet_empty (key : String) : tableGet Layer.empty key = none := by
  cases hparts : keyParts key with
  | nil => exact absurd hparts (keyParts_ne_nil key)
  | cons first rest =>
    rw [tableGet, hparts]
    exact Tree.pointer_none rest

theorem tableGet_empty_merge (overlay : Table) (key : String) :
    tableGet (deepMerge Layer.empty overlay) key = tableGet overlay key := by
  rw [tableGet_deepMerge, tableGet_empty]
  split
  next hhides => exact (Tree.pointer_of_blocks hhides).symm
  · exact Tree.lay_none_left _

/-- The merged table of three layers that are read. -/
theorem Reads.get_eq (hreads : Reads env config mode gitRef global project overlay)
    (hkey : key ∈ machineOnlyKeys) :
    (withProjectLayerAtRef env config mode gitRef).1.get key =
      layeredValue (global.getD Layer.empty) project (overlay.getD Layer.empty) key := by
  have hglobal : mergeIfPresent env Layer.empty (configFile config.globalDir) =
      .ok (deepMerge Layer.empty (global.getD Layer.empty)) := by
    rw [mergeIfPresent, hreads.global]
    cases global <;> rfl
  have hdata : layerData env config (stripMachineOnly project) =
      .ok (deepMerge (deepMerge (deepMerge Layer.empty (global.getD Layer.empty))
        (stripMachineOnly project)) (overlay.getD Layer.empty)) := by
    rw [layerData, hglobal]
    have hoverlay := hreads.overlay
    cases hdir : config.localDir with
    | none =>
      rw [hdir] at hoverlay
      rw [hoverlay]
      rfl
    | some localDir =>
      rw [hdir] at hoverlay
      simp only [mergeIfPresent, hoverlay]
      cases overlay <;> rfl
  rw [withProjectLayerAtRef, hreads.project]
  simp only [hdata, LoadedConfig.get]
  -- The stripped project says nothing at the key.
  rw [tableGet_deepMerge, tableGet_deepMerge, tableGet_empty_merge, stripMachineOnly,
    get_foldl_of_mem hkey, hides_foldl project (machineOnlyKeys_apart key hkey)]
  rfl

/-- Two tracked tables give one value at a key exactly when both or neither have
a leaf on the way, or the machine sets nothing there. -/
theorem layeredValue_eq_iff (global overlay project₁ project₂ : Table) (key : String) :
    layeredValue global project₁ overlay key = layeredValue global project₂ overlay key ↔
      (MachineSets global overlay key →
        project₁.hides (keyParts key) = project₂.hides (keyParts key)) := by
  have halone : (if overlay.hides (keyParts key) then none
      else Tree.lay none (tableGet overlay key)) = tableGet overlay key := by
    have hempty := tableGet_empty_merge overlay key
    rw [tableGet_deepMerge, tableGet_empty] at hempty
    exact hempty
  have hboth : (if overlay.hides (keyParts key) then none
      else Tree.lay (tableGet global key) (tableGet overlay key)) =
      tableGet (deepMerge global overlay) key := (tableGet_deepMerge global overlay key).symm
  unfold layeredValue MachineSets
  cases project₁.hides (keyParts key) <;> cases project₂.hides (keyParts key)
  · simp
  · simp only [Bool.false_eq_true, if_false, if_true, halone, hboth]
    simp
  · simp only [Bool.false_eq_true, if_false, if_true, halone, hboth]
    simp [eq_comm]
  · simp

end Layered

/-- Two tracked tables under the same machine-global and local files agree on the
machine-only keys exactly when, at each one that the machine sets, both or neither
of them have a leaf in the place of a parent table. -/
theorem machine_only_values_agree_iff {env₁ env₂ : ConfigEnv} {config : LoadedConfig}
    {mode : RuntimeMode} {gitRef₁ gitRef₂ : String} {global overlay : Option Table}
    {project₁ project₂ : Table}
    (hreads₁ : Reads env₁ config mode gitRef₁ global project₁ overlay)
    (hreads₂ : Reads env₂ config mode gitRef₂ global project₂ overlay) :
    (∀ key ∈ machineOnlyKeys,
      (withProjectLayerAtRef env₁ config mode gitRef₁).1.get key =
        (withProjectLayerAtRef env₂ config mode gitRef₂).1.get key) ↔
      ∀ key ∈ machineOnlyKeys,
        MachineSets (global.getD Layer.empty) (overlay.getD Layer.empty) key →
          project₁.hides (keyParts key) = project₂.hides (keyParts key) := by
  refine forall₂_congr fun key hkey => ?_
  rw [hreads₁.get_eq hkey, hreads₂.get_eq hkey, layeredValue_eq_iff]

/-- The machine's file, with an authentication setting. -/
def machineTable : Table where
  entries := [("github", .table [("auth", .leaf (.string "app"))])]
  ordered := rfl

def text (value : String) : TomlValue := .leaf (.string value)

/-- A tracked file that sets other keys only. -/
def quietTable : Table where
  entries := [("merge", text "queue")]
  ordered := rfl

/-- A tracked file with a text in the place of the `github` table. -/
def erasingTable : Table where
  entries := [("github", text "none")]
  ordered := rfl

/-- A checkout with the machine's file and the given tracked one, no overlay. -/
def checkout (project : Table) : ConfigEnv where
  pathExists path := path = "/etc/shipyard/config.toml"
  readToString _ := .ok "machine"
  parse contents := .ok (if contents = "machine" then machineTable else project)
  gitShow _ := .ok ⟨true, "project", ""⟩

def machineConfig : LoadedConfig where
  data := Layer.empty
  globalDir := "/etc/shipyard"

theorem checkout_reads (project : Table) (mode : RuntimeMode) (gitRef : String) :
    Reads (checkout project) machineConfig mode gitRef (some machineTable) project none where
  global := rfl
  project := rfl
  overlay := rfl

theorem quiet_tables_agree :
    Reads (checkout quietTable) machineConfig .shipyard "main" (some machineTable) quietTable
      none ∧
    Reads (checkout Layer.empty) machineConfig .shipyard "main" (some machineTable) Layer.empty
      none ∧
    ∀ key ∈ machineOnlyKeys,
      (withProjectLayerAtRef (checkout quietTable) machineConfig .shipyard "main").1.get key =
        (withProjectLayerAtRef (checkout Layer.empty) machineConfig .shipyard "main").1.get
          key := by
  refine ⟨checkout_reads _ _ _, checkout_reads _ _ _,
    (machine_only_values_agree_iff (checkout_reads _ _ _) (checkout_reads _ _ _)).mpr ?_⟩
  have hquiet : ∀ key ∈ machineOnlyKeys,
      quietTable.hides (keyParts key) = (Layer.empty : Table).hides (keyParts key) := by
    decide +kernel
  exact fun key hkey _ => hquiet key hkey

/-- Both refs are read, and the tracked text erases the machine's authentication
setting. -/
theorem erasing_table_hides_auth :
    (withProjectLayerAtRef (checkout quietTable) machineConfig .shipyard "main").2 =
        .gitRef "main" ∧
      (withProjectLayerAtRef (checkout erasingTable) machineConfig .shipyard "main").2 =
        .gitRef "main" ∧
      ((withProjectLayerAtRef (checkout quietTable) machineConfig .shipyard "main").1.get
        "github.auth").isSome = true ∧
      (withProjectLayerAtRef (checkout erasingTable) machineConfig .shipyard "main").1.get
        "github.auth" = none := by
  refine ⟨by decide +kernel, by decide +kernel, by decide +kernel, ?_⟩
  rw [← Option.isNone_iff_eq_none]
  decide +kernel

end Shipyard.Config
