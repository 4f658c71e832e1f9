import Mathlib.Data.List.TakeWhile
import IronCrew.Lib.Runs
import IronCrew.Tools.ProjectFs

/-!
# What agents can write

The check of a path for writing looks at the extension of its last name only. So the paths that an
agent may write but not read are those with a protected or hidden directory, and those whose file name
is protected although it has an extension.
-/

namespace IronCrew

open Outcome

/-! ### Names with an extension -/

theorem toLower_eq_dot_iff {c : Char} : c.toLower = '.' ↔ c = '.' := by
  constructor
  · intro hlower
    unfold Char.toLower at hlower
    split at hlower
    · next hupper =>
        obtain ⟨hlow, hhigh⟩ := hupper
        have hval : c.val + 32 = 46 := congrArg Char.val hlower
        have hnat := congrArg UInt32.toNat hval
        have hlow' : 65 ≤ c.val.toNat := hlow
        have hhigh' : c.val.toNat ≤ 90 := hhigh
        rw [UInt32.toNat_add] at hnat
        simp only [UInt32.reduceToNat] at hnat
        omega
    · exact hlower
  · rintro rfl
    decide

theorem extensionOf_eq_some {name extension : String} (hextension : extensionOf name = some extension) :
    ∃ before, before ≠ [] ∧ name.toList = before ++ '.' :: extension.toList ∧
      '.' ∉ extension.toList := by
  unfold extensionOf at hextension
  have hsplit : name.toList.reverse.takeWhile (· ≠ '.') ++ name.toList.reverse.dropWhile (· ≠ '.') =
      name.toList.reverse := List.takeWhile_append_dropWhile
  dsimp only at hextension
  split at hextension
  · cases hextension
  · next dot before hdrop =>
      have hdot : dot = '.' := by
        have hhead := List.head?_dropWhile_not (· ≠ '.') name.toList.reverse
        rw [hdrop] at hhead
        simpa using hhead
      split at hextension
      · cases hextension
      · next hbefore =>
          obtain rfl := Option.some.inj hextension
          refine ⟨before.reverse, by simpa using hbefore, ?_, ?_⟩
          · rw [hdrop] at hsplit
            have hname := congrArg List.reverse hsplit
            rw [List.reverse_reverse] at hname
            calc name.toList = _ := hname.symm
              _ = _ := by simp [hdot]
          · intro hmem
            simp only [String.toList_ofList, List.mem_reverse] at hmem
            simpa using List.mem_takeWhile_imp hmem

theorem toList_toAsciiLowercase (text : String) :
    (toAsciiLowercase text).toList = text.toList.map Char.toLower := by
  rw [toAsciiLowercase, String.toList_ofList]

theorem eq_of_append_dot {before before' after after' : List Char} (hafter : '.' ∉ after)
    (hafter' : '.' ∉ after') (heq : before ++ '.' :: after = before' ++ '.' :: after') :
    after = after' := by
  have hreverse := congrArg List.reverse heq
  simp only [List.reverse_append, List.reverse_cons, List.append_assoc, List.singleton_append]
    at hreverse
  have htake := congrArg (List.takeWhile (· ≠ '.')) hreverse
  rw [List.takeWhile_append_of_pos (by simpa using fun c hc => ne_of_mem_of_not_mem hc hafter),
    List.takeWhile_append_of_pos (by simpa using fun c hc => ne_of_mem_of_not_mem hc hafter')]
    at htake
  simpa using htake

def isHidden (name : String) : Bool :=
  name.toList.head? = some '.'

def isProtectedFile (name extension : String) : Bool :=
  "credentials.".toList.isPrefixOf (toAsciiLowercase name).toList ||
    "secrets.".toList.isPrefixOf (toAsciiLowercase name).toList ||
    decide (toAsciiLowercase extension ∈ keyExtensions)

theorem isSensitiveName_of_dotted {name : String} (hhead : name.toList.head? ≠ some '.')
    (hdot : '.' ∈ name.toList) :
    isSensitiveName name = true ↔
      "credentials.".toList.isPrefixOf name.toList = true ∨
        "secrets.".toList.isPrefixOf name.toList = true ∨
        ∃ extension ∈ keyExtensions, ("." ++ extension).toList <:+ name.toList := by
  have hnot (other : String) (hother : other.toList.head? = some '.' ∨ '.' ∉ other.toList) :
      name ≠ other := by
    rintro rfl
    exact hother.elim hhead fun h => h hdot
  have henv : ".env.".toList.isPrefixOf name.toList = false := by
    cases hname : name.toList with
    | nil => rfl
    | cons first rest =>
      rw [hname] at hhead
      have hfirst : first ≠ '.' := by simpa using hhead
      simp [List.isPrefixOf, hfirst.symm]
  have hjson {label : String} (hname : name = label ++ "json") :
      label.toList.isPrefixOf name.toList = true := by
    rw [hname, String.toList_append]
    exact List.isPrefixOf_iff_prefix.mpr (List.prefix_append _ _)
  unfold isSensitiveName
  simp only [Bool.or_eq_true, decide_eq_true_eq, henv, Bool.false_eq_true, List.mem_cons,
    List.not_mem_nil, or_false, List.any_eq_true, List.isSuffixOf_iff_suffix]
  constructor
  · rintro ((((hname | hname) | hname) | hname) | hname)
    · exact absurd hname (hnot _ (.inl rfl))
    · obtain hname | hname | hname | hname | hname | hname | hname | hname | hname | hname | hname |
        hname | hname | hname | hname | hname := hname
      all_goals first
        | exact absurd hname (hnot _ (.inl rfl))
        | exact absurd hname (hnot _ (.inr (by decide)))
        | exact .inl (hjson hname)
        | exact .inr (.inl (hjson hname))
    · exact .inl hname
    · exact .inr (.inl hname)
    · exact .inr (.inr hname)
  · rintro (hname | hname | hname)
    · exact .inl (.inl (.inr hname))
    · exact .inl (.inr hname)
    · exact .inr hname

theorem not_dot_of_mem_keyExtensions : ∀ key ∈ keyExtensions, '.' ∉ key.toList := by
  decide

theorem isSensitiveName_iff {name extension : String} (hvisible : isHidden name = false)
    (hextension : extensionOf name = some extension) :
    isSensitiveName (toAsciiLowercase name) = isProtectedFile name extension := by
  obtain ⟨before, hbefore, hname, hafter⟩ := extensionOf_eq_some hextension
  have hlower : (toAsciiLowercase name).toList =
      before.map Char.toLower ++ '.' :: (toAsciiLowercase extension).toList := by
    rw [toList_toAsciiLowercase, toList_toAsciiLowercase, hname]
    simp
  have hhead : (toAsciiLowercase name).toList.head? ≠ some '.' := by
    rw [toList_toAsciiLowercase, List.head?_map]
    intro hsome
    obtain ⟨c, hc, hdot⟩ := Option.map_eq_some_iff.mp hsome
    rw [isHidden, hc, toLower_eq_dot_iff.mp hdot] at hvisible
    cases hvisible
  have hdotted : '.' ∈ (toAsciiLowercase name).toList := by
    rw [hlower]
    simp
  have hclean : '.' ∉ (toAsciiLowercase extension).toList := by
    rw [toList_toAsciiLowercase, List.mem_map]
    rintro ⟨c, hc, hdot⟩
    exact hafter (toLower_eq_dot_iff.mp hdot ▸ hc)
  have hkey : (∃ key ∈ keyExtensions, ("." ++ key).toList <:+ (toAsciiLowercase name).toList) ↔
      toAsciiLowercase extension ∈ keyExtensions := by
    constructor
    · rintro ⟨key, hmem, front, hfront⟩
      have hplain := not_dot_of_mem_keyExtensions key hmem
      have hsplit : front ++ '.' :: key.toList =
          before.map Char.toLower ++ '.' :: (toAsciiLowercase extension).toList := by
        rw [← hlower, ← hfront]
        simp
      rw [String.toList_inj.mp (eq_of_append_dot hclean hplain hsplit.symm)]
      exact hmem
    · intro hmem
      refine ⟨_, hmem, before.map Char.toLower, ?_⟩
      rw [hlower]
      simp
  rw [Bool.eq_iff_iff, isSensitiveName_of_dotted hhead hdotted, hkey, isProtectedFile]
  simp only [Bool.or_eq_true, decide_eq_true_eq, or_assoc]

/-! ### Paths that pass the check for writing -/

def Guarded (path : String) : Prop :=
  (∀ name ∈ pathNames path, isHidden name = false) ∧ validateAgentReadPath path = .ok ()

/-- No directory of the path is hidden or protected, and its file name is not hidden and not of a
protected form with an extension. -/
structure OpenPath (path : String) : Prop where
  directories : ∀ name ∈ (pathNames path).dropLast,
    isHidden name = false ∧ isSensitiveName (toAsciiLowercase name) = false
  file : ∀ name extension, fileName path = some name → extensionOf name = some extension →
    isHidden name = false ∧ isProtectedFile name extension = false

theorem pathNames_eq {path name : String} (hname : fileName path = some name) :
    pathNames path = (pathNames path).dropLast ++ [name] := by
  obtain ⟨component, hlast, hcomponent⟩ := Option.bind_eq_some_iff.mp hname
  obtain ⟨init, hinit⟩ := List.getLast?_eq_some_iff.mp hlast
  have hnames : pathNames path = init.filterMap PathComponent.name? ++ [name] := by
    rw [pathNames, hinit, List.filterMap_append, List.filterMap_cons_some hcomponent,
      List.filterMap_nil]
  rw [hnames, List.dropLast_concat]

variable {path : String}

theorem validateAgentWritePath_eq_ok (hvalid : validateAgentWritePath path = .ok ()) :
    validateRelative path = .ok () ∧ ∃ name extension, fileName path = some name ∧
      extensionOf name = some extension := by
  obtain ⟨hrelative, hvalid⟩ := unit_bind_ok_iff.mp hvalid
  obtain ⟨extension, hextension, _⟩ := bind_ok_iff.mp hvalid
  obtain ⟨name, hname, hof⟩ := Option.bind_eq_some_iff.mp (require_ok_iff.mp hextension)
  exact ⟨hrelative, name, extension, hname, hof⟩

theorem FileWriteTool.validatePath_eq_ok {tool : FileWriteTool}
    (hvalid : tool.validatePath path = .ok ()) : validateAgentWritePath path = .ok () :=
  mapError_ok_iff.mp (unit_bind_ok_iff.mp hvalid).1

theorem guarded_iff_openPath (hvalid : validateAgentWritePath path = .ok ()) :
    Guarded path ↔ OpenPath path := by
  obtain ⟨hrelative, name, extension, hname, hextension⟩ := validateAgentWritePath_eq_ok hvalid
  have hnames := pathNames_eq hname
  have hlast : name ∈ pathNames path := by
    rw [hnames]
    exact List.mem_append_right _ (List.mem_singleton_self name)
  have hread : validateAgentReadPath path = .ok () ↔
      ∀ name ∈ pathNames path, isSensitiveName (toAsciiLowercase name) = false := by
    rw [validateAgentReadPath, unit_bind_ok_iff, ensure_ok_iff]
    simp [hrelative]
  constructor
  · rintro ⟨hhidden, hguarded⟩
    have hplain := hread.mp hguarded
    refine ⟨fun directory hdirectory => ?_, fun file extension' hfile hextension' => ?_⟩
    · have hmem := List.dropLast_subset _ hdirectory
      exact ⟨hhidden directory hmem, hplain directory hmem⟩
    · obtain rfl := Option.some.inj (hname.symm.trans hfile)
      refine ⟨hhidden _ hlast, ?_⟩
      rw [← isSensitiveName_iff (hhidden _ hlast) hextension']
      exact hplain _ hlast
  · intro hopen
    obtain ⟨hvisible, hform⟩ := hopen.file name extension hname hextension
    have hall (other : String) (hother : other ∈ pathNames path) :
        isHidden other = false ∧ isSensitiveName (toAsciiLowercase other) = false := by
      rw [hnames] at hother
      obtain hother | hother := List.mem_append.mp hother
      · exact hopen.directories other hother
      · rw [List.mem_singleton.mp hother, isSensitiveName_iff hvisible hextension]
        exact ⟨hvisible, hform⟩
    exact ⟨fun other hother => (hall other hother).1,
      hread.mpr fun other hother => (hall other hother).2⟩

/-! ### Writes -/

def ProjectTree.Direct (tree : ProjectTree) (path : String) : Prop :=
  ∀ names, names <+: (pathNames path).dropLast → tree.links.lookup names = none

theorem ProjectTree.openDir_of_no_links {tree : ProjectTree} {expansions : Nat}
    {reached names : List String}
    (hdirect : ∀ front, front <+: reached ++ names → tree.links.lookup front = none) :
    tree.openDir expansions reached names = some (reached ++ names) := by
  induction names generalizing reached with
  | nil => rw [openDir, List.append_nil]
  | cons name names ih =>
    have hnone : tree.links.lookup (reached ++ [name]) = none :=
      hdirect _ ⟨names, by simp⟩
    have hassoc : reached ++ name :: names = reached ++ [name] ++ names := by simp
    rw [openDir, hnone]
    dsimp only
    rw [hassoc]
    exact ih fun front hfront => hdirect front (hassoc ▸ hfront)

theorem FileWriteTool.call_cases (tool : FileWriteTool) (tree : ProjectTree) (args : Json) :
    tool.call tree args = tree ∨
      ∃ path content target, (args.field "path").asStr = some path ∧
        tool.validatePath path = .ok () ∧ tree.writeTarget path = some target ∧
        tool.call tree args = { tree with files := tree.files.insert target content } := by
  unfold call
  cases hexecute : tool.execute tree args with
  | error error => exact .inl rfl
  | ok result =>
    obtain ⟨path, hpath, hexecute⟩ := bind_ok_iff.mp hexecute
    obtain ⟨content, _, hexecute⟩ := bind_ok_iff.mp hexecute
    obtain ⟨hvalid, hexecute⟩ := unit_bind_ok_iff.mp hexecute
    obtain ⟨_, hexecute⟩ := ensure_bind_ok_iff.mp hexecute
    obtain ⟨written, hwritten, hexecute⟩ := bind_ok_iff.mp hexecute
    obtain ⟨_, hwritten⟩ := unit_bind_ok_iff.mp (mapError_ok_iff.mp hwritten)
    obtain ⟨target, htarget, hwritten⟩ := bind_ok_iff.mp hwritten
    obtain ⟨_, hwritten⟩ := ensure_bind_ok_iff.mp hwritten
    obtain ⟨_, hwritten⟩ := ensure_bind_ok_iff.mp hwritten
    obtain rfl := Except.ok.inj hwritten
    obtain rfl := Except.ok.inj hexecute
    exact .inr ⟨path, content, target, require_ok_iff.mp hpath, hvalid,
      require_ok_iff.mp htarget, rfl⟩

theorem isStoreRecord_writeTarget {tree : ProjectTree} {target : List String}
    (hvalid : validateAgentWritePath path = .ok ()) (hopen : OpenPath path)
    (hdirect : tree.Direct path) (htarget : tree.writeTarget path = some target) :
    isStoreRecord target = false := by
  obtain ⟨_, name, extension, hname, hextension⟩ := validateAgentWritePath_eq_ok hvalid
  have hnames := pathNames_eq hname
  obtain ⟨last, hlast, htarget⟩ := Option.bind_eq_some_iff.mp htarget
  obtain ⟨parent, hparent, htarget⟩ := Option.bind_eq_some_iff.mp htarget
  have hreached : tree.openDir maxSymlinkExpansions [] (pathNames path).dropLast =
      some ([] ++ (pathNames path).dropLast) := ProjectTree.openDir_of_no_links hdirect
  obtain rfl := Option.some.inj (hparent.symm.trans hreached)
  obtain rfl := Option.some.inj htarget
  rw [Bool.eq_false_iff]
  intro hrecord
  unfold isStoreRecord at hrecord
  split at hrecord
  · next directory rest hsplit =>
      have hdirectories := congrArg List.dropLast hsplit
      rw [List.nil_append, List.dropLast_concat, List.dropLast_cons_of_ne_nil (List.cons_ne_nil _ _)]
        at hdirectories
      have hmem : ".ironcrew" ∈ (pathNames path).dropLast := by
        rw [hdirectories]
        exact List.mem_cons_self
      cases (hopen.directories _ hmem).1
  · cases hrecord

/-- Of the paths that the tool accepts, exactly the open ones have no hidden name and are readable by
agents. A run of calls at open paths without links on them leaves every record of the store. -/
theorem fileWrite_guarded (tool : FileWriteTool) :
    (∀ path, tool.validatePath path = .ok () → (Guarded path ↔ OpenPath path)) ∧
      ∀ (tree : ProjectTree) (calls : List Json),
        (∀ args ∈ calls, ∀ path, (args.field "path").asStr = some path →
          OpenPath path ∧ tree.Direct path) →
        ∀ names, isStoreRecord names = true →
          (calls.foldl tool.call tree).files.lookup names = tree.files.lookup names := by
  refine ⟨fun path hvalid => guarded_iff_openPath (FileWriteTool.validatePath_eq_ok hvalid), ?_⟩
  intro tree calls hcalls names hrecord
  have hstep (current : ProjectTree) (args : Json)
      (hargs : ∀ path, (args.field "path").asStr = some path → OpenPath path ∧ tree.Direct path)
      (hkept : current.links = tree.links ∧ current.files.lookup names = tree.files.lookup names) :
      (tool.call current args).links = tree.links ∧
        (tool.call current args).files.lookup names = tree.files.lookup names := by
    obtain ⟨hlinks, hfile⟩ := hkept
    obtain hsame | ⟨path, content, target, hpath, hvalid, htarget, hcall⟩ :=
      tool.call_cases current args
    · rw [hsame]
      exact ⟨hlinks, hfile⟩
    · obtain ⟨hopen, hdirect⟩ := hargs path hpath
      have hdirect' : current.Direct path := by
        unfold ProjectTree.Direct
        rw [hlinks]
        exact hdirect
      have hother := isStoreRecord_writeTarget (FileWriteTool.validatePath_eq_ok hvalid) hopen
        hdirect' htarget
      have hne : names ≠ target := by
        rintro rfl
        rw [hrecord] at hother
        cases hother
      rw [hcall]
      exact ⟨hlinks, (AList.lookup_insert_ne hne).trans hfile⟩
  exact (Runs.foldl_preserves _ hstep calls tree hcalls ⟨rfl, rfl⟩).2

namespace Sample

def fileWrite : FileWriteTool := FileWriteTool.new none 10485760

def runRecordPath : List String := [".ironcrew", "runs", "run-1.json"]

def project : ProjectTree :=
  { files := AList.insert runRecordPath "\x7b\"status\": \"success\"\x7d" ∅
    links := ∅
    directories := [[".ironcrew"], [".ironcrew", "runs"]] }

def writeArgs (path content : String) : Json :=
  .object [("path", .string path), ("content", .string content)]

theorem project_direct (path : String) : project.Direct path :=
  fun names _ => AList.lookup_empty names

end Sample

theorem fileWrite_guarded_report :
    Sample.fileWrite.validatePath "reports/summary.md" = .ok () ∧ Guarded "reports/summary.md" ∧
      (Sample.fileWrite.call Sample.project
        (Sample.writeArgs "reports/summary.md" "Done.")).files.lookup Sample.runRecordPath =
          Sample.project.files.lookup Sample.runRecordPath := by
  have hvalid : Sample.fileWrite.validatePath "reports/summary.md" = .ok () := by decide +kernel
  have hopen : OpenPath "reports/summary.md" :=
    { directories := by decide +kernel
      file := by
        intro name extension hname hextension
        obtain rfl : name = "summary.md" := by
          have hfile : fileName "reports/summary.md" = some "summary.md" := by decide +kernel
          exact Option.some.inj (hname.symm.trans hfile)
        obtain rfl : extension = "md" := by
          have hof : extensionOf "summary.md" = some "md" := by decide +kernel
          exact Option.some.inj (hextension.symm.trans hof)
        decide +kernel }
  obtain ⟨hguarded, hrun⟩ := fileWrite_guarded Sample.fileWrite
  refine ⟨hvalid, (hguarded _ hvalid).mpr hopen, ?_⟩
  refine hrun Sample.project [Sample.writeArgs "reports/summary.md" "Done."] ?_ _ (by decide)
  intro args hargs path hpath
  obtain rfl := List.mem_singleton.mp hargs
  obtain rfl : "reports/summary.md" = path := Option.some.inj hpath
  exact ⟨hopen, Sample.project_direct _⟩

/-- The tool accepts the path of a record of the store, and overwrites it. -/
theorem fileWrite_reaches_store :
    Sample.fileWrite.validatePath ".ironcrew/runs/run-1.json" = .ok () ∧
      ¬ Guarded ".ironcrew/runs/run-1.json" ∧
      (Sample.fileWrite.call Sample.project
        (Sample.writeArgs ".ironcrew/runs/run-1.json" "gone")).files.lookup Sample.runRecordPath =
          some "gone" := by
  have hvalid : Sample.fileWrite.validatePath ".ironcrew/runs/run-1.json" = .ok () := by
    decide +kernel
  have hnames : pathNames ".ironcrew/runs/run-1.json" = Sample.runRecordPath := by decide +kernel
  refine ⟨hvalid, ?_, ?_⟩
  · rintro ⟨hhidden, _⟩
    have hfirst := hhidden ".ironcrew" (by rw [hnames]; exact List.mem_cons_self)
    cases hfirst
  · have htarget : Sample.project.writeTarget ".ironcrew/runs/run-1.json" =
        some Sample.runRecordPath := by
      rw [ProjectTree.writeTarget, hnames, ProjectTree.openDir_of_no_links
        fun front _ => AList.lookup_empty front]
      rfl
    have hexecute : Sample.fileWrite.execute Sample.project
        (Sample.writeArgs ".ironcrew/runs/run-1.json" "gone") =
          .ok ("Successfully wrote 4 bytes to .ironcrew/runs/run-1.json",
            { Sample.project with
              files := Sample.project.files.insert Sample.runRecordPath "gone" }) := by
      refine bind_ok_iff.mpr ⟨".ironcrew/runs/run-1.json", rfl, bind_ok_iff.mpr ⟨"gone", rfl, ?_⟩⟩
      refine unit_bind_ok_iff.mpr ⟨hvalid, ensure_bind_ok_iff.mpr ⟨by decide, ?_⟩⟩
      refine bind_ok_iff.mpr ⟨_, mapError_ok_iff.mpr ?_, rfl⟩
      refine unit_bind_ok_iff.mpr ⟨by decide +kernel, ?_⟩
      refine bind_ok_iff.mpr ⟨_, require_ok_iff.mpr htarget, ?_⟩
      exact ensure_bind_ok_iff.mpr ⟨rfl, ensure_bind_ok_iff.mpr ⟨by decide, rfl⟩⟩
    rw [FileWriteTool.call, hexecute]
    exact AList.lookup_insert _

end IronCrew
