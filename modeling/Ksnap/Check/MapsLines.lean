import Ksnap.Check.MapsText
import Ksnap.Snapshot.Collected

/-!
# The tables of a dump, line by line

What `collect_vmas` makes of a whole `/proc/pid/maps`. A line that fills the buffer goes on
in further pieces, which are parsed as if they were lines, so the text of a long path can
become an entry of its own.
-/

namespace Ksnap

open Foundation ShownMapping

/-- The text of the mappings, a line for each. -/
def mapsText (mappings : List ShownMapping) : Bytes :=
  mappings.flatMap fun mapping => mapping.body ++ [10]

namespace ShownMapping

/-- What `classify_maps_line` says of the line. -/
def vmaClass (mapping : ShownMapping) : VmaClass :=
  classifyMapsLine mapping.line

/-- The protection that the line shows. -/
def prot (mapping : ShownMapping) : UInt32 :=
  (if mapping.readable then protRead else 0) ||| (if mapping.writable then protWrite else 0) |||
    (if mapping.executable then protExec else 0)

/-- The pieces of the line that follow the first one. -/
def laterPieces (mapping : ShownMapping) : List Bytes :=
  fgetsLines mapsLineMax ((mapping.body ++ [10]).drop (mapsLineMax - 1))

/-- The text of the line that follows its first piece holds no mapping that is collected. -/
def Harmless (mapping : ShownMapping) : Prop :=
  ∀ piece ∈ mapping.laterPieces, ∀ parsed, parseMapsLine piece = some parsed →
    classifyMapsLine parsed ≠ .dump ∧ classifyMapsLine parsed ≠ .kernel

/-- The entry has the numbers of the line. -/
structure Describes (mapping : ShownMapping) (vma : VmaDescriptor) : Prop where
  startAddress : vma.startAddress = mapping.start
  size : vma.size = mapping.stop - mapping.start
  fileOffset : vma.fileOffset = mapping.fileOffset
  prot : vma.prot = mapping.prot

structure DescribesKernel (mapping : ShownMapping) (kernelMap : KernelMap) : Prop where
  startAddress : kernelMap.startAddress = mapping.start
  size : kernelMap.size = mapping.stop - mapping.start

end ShownMapping

/-- The tables have one entry for each line of their class, in order. -/
structure CollectsLines (mappings : List ShownMapping) (table : VmaTable) : Prop where
  vmas : List.Forall₂ Describes (mappings.filter (·.vmaClass = .dump)) table.vmas
  kernelMaps : List.Forall₂ DescribesKernel (mappings.filter (·.vmaClass = .kernel))
    table.kernelMaps

/-! ## Pieces -/

theorem fgetsLines_mapping (mapping : ShownMapping) (after : Bytes) :
    fgetsLines mapsLineMax ((mapping.body ++ [10]) ++ after) =
      (mapping.body ++ [10]).take (mapsLineMax - 1) ::
        (mapping.laterPieces ++ fgetsLines mapsLineMax after) := by
  have unbroken : 10 ∉ mapping.body := notMem_body (.inr rfl) mapping.name_printed.2
  rw [List.append_assoc]
  exact fgetsLines_line unbroken (mapsLineMax - 2)

/-- The lines of a class are those of the mappings, and what else their text holds. -/
theorem linesOf_mapsText (vmaClass : VmaClass) (mappings : List ShownMapping) :
    linesOf vmaClass (fgetsLines mapsLineMax (mapsText mappings)) =
      mappings.flatMap fun mapping =>
        (if mapping.vmaClass = vmaClass then [mapping.line] else []) ++
          linesOf vmaClass mapping.laterPieces := by
  induction mappings with
  | nil => rfl
  | cons mapping mappings ih =>
      have first : linesOf vmaClass [(mapping.body ++ [10]).take (mapsLineMax - 1)] =
          if mapping.vmaClass = vmaClass then [mapping.line] else [] :=
        linesOf_singleton parseMapsLine_body
      rw [mapsText, List.flatMap_cons, fgetsLines_mapping, ← List.singleton_append,
        linesOf_append, linesOf_append, first, ← mapsText, ih, List.flatMap_cons,
        List.append_assoc]

theorem linesOf_eq_nil_iff {vmaClass : VmaClass} {pieces : List Bytes} :
    linesOf vmaClass pieces = [] ↔
      ∀ piece ∈ pieces, ∀ parsed, parseMapsLine piece = some parsed →
        classifyMapsLine parsed ≠ vmaClass := by
  rw [linesOf, List.filter_eq_nil_iff]
  constructor
  · intro none_ piece mem parsed parses same
    exact none_ parsed (List.mem_filterMap.mpr ⟨piece, mem, parses⟩) (decide_eq_true same)
  · intro others parsed mem same
    rcases List.mem_filterMap.mp mem with ⟨piece, pieceMem, parses⟩
    exact others piece pieceMem parsed parses (of_decide_eq_true same)

theorem harmless_iff (mapping : ShownMapping) :
    mapping.Harmless ↔
      linesOf .dump mapping.laterPieces = [] ∧ linesOf .kernel mapping.laterPieces = [] := by
  rw [linesOf_eq_nil_iff, linesOf_eq_nil_iff]
  constructor
  · intro harmless
    exact ⟨fun piece mem parsed parses => (harmless piece mem parsed parses).1,
      fun piece mem parsed parses => (harmless piece mem parsed parses).2⟩
  · rintro ⟨noDump, noKernel⟩ piece mem parsed parses
    exact ⟨noDump piece mem parsed parses, noKernel piece mem parsed parses⟩

/-! ## Numbers of entries -/

theorem length_linesOf (vmaClass : VmaClass) (mappings : List ShownMapping) :
    (linesOf vmaClass (fgetsLines mapsLineMax (mapsText mappings))).length =
      (mappings.filter (·.vmaClass = vmaClass)).length +
        (mappings.map fun mapping => (linesOf vmaClass mapping.laterPieces).length).sum := by
  rw [linesOf_mapsText]
  induction mappings with
  | nil => rfl
  | cons mapping mappings ih =>
      rw [List.flatMap_cons, List.length_append, ih, List.length_append, List.filter_cons,
        List.map_cons, List.sum_cons]
      by_cases own : mapping.vmaClass = vmaClass
      · simp [own]
        omega
      · simp [own]
        omega

/-- With as many lines of a class as there are mappings of it, the text of none holds more. -/
theorem later_eq_nil_of_length {vmaClass : VmaClass} {mappings : List ShownMapping}
    (same : (linesOf vmaClass (fgetsLines mapsLineMax (mapsText mappings))).length =
      (mappings.filter (·.vmaClass = vmaClass)).length) :
    ∀ mapping ∈ mappings, linesOf vmaClass mapping.laterPieces = [] := by
  rw [length_linesOf, Nat.add_eq_left, List.sum_eq_zero_iff_forall_eq_nat] at same
  intro mapping mem
  exact List.length_eq_zero_iff.mp (same _ (List.mem_map_of_mem mem))

theorem linesOf_of_later_eq_nil {vmaClass : VmaClass} {mappings : List ShownMapping}
    (none_ : ∀ mapping ∈ mappings, linesOf vmaClass mapping.laterPieces = []) :
    linesOf vmaClass (fgetsLines mapsLineMax (mapsText mappings)) =
      (mappings.filter (·.vmaClass = vmaClass)).map ShownMapping.line := by
  rw [linesOf_mapsText]
  induction mappings with
  | nil => rfl
  | cons mapping mappings ih =>
      have others := ih fun other mem => none_ other (List.mem_cons_of_mem _ mem)
      rw [List.flatMap_cons, others, none_ mapping List.mem_cons_self, List.filter_cons]
      by_cases own : mapping.vmaClass = vmaClass
      · simp [own]
      · simp [own]

/-! ## The tables -/

theorem prot_line (mapping : ShownMapping) :
    permsToProt mapping.line.privileges = mapping.prot := by
  have letter : ∀ (allowed : Bool) (byte : UInt8), byte ≠ 45 →
      ((if allowed = true then byte else 45) = byte ↔ allowed = true) := by
    intro allowed byte notDash
    cases allowed
    · simpa using notDash.symm
    · simp
  simp only [permsToProt, ShownMapping.line, privileges, ShownMapping.prot,
    List.getElem?_cons_zero, List.getElem?_cons_succ, Option.some.injEq]
  simp only [letter _ 114 (by decide), letter _ 119 (by decide), letter _ 120 (by decide)]

theorem describes_of_described {pool : Bytes} {mapping : ShownMapping} {vma : VmaDescriptor}
    (described : VmaDescribed pool mapping.line vma) : mapping.Describes vma := by
  rw [described.1]
  exact ⟨rfl, rfl, rfl, prot_line mapping⟩

theorem describesKernel_of_ofLine {mapping : ShownMapping} {kernelMap : KernelMap}
    (described : KernelMap.ofLine mapping.line = some kernelMap) :
    mapping.DescribesKernel kernelMap := by
  rw [KernelMap.ofLine] at described
  split at described
  · cases described
    exact ⟨rfl, rfl⟩
  · cases described

section

variable {mappings : List ShownMapping} {readFails : Bool} {memory : Allocations}
  {start : PathPool} {table : VmaTable}

/-- The tables hold one entry a line exactly if the text behind the first piece of no line
holds a mapping. -/
theorem collectsLines_iff
    (collects : collectVmas (some ⟨mapsText mappings, readFails⟩) memory start = some table) :
    CollectsLines mappings table ↔ ∀ mapping ∈ mappings, mapping.Harmless := by
  rcases vmasCollected_of_collectVmas collects with ⟨maps, same, -, -, collected⟩
  cases same
  simp only [harmless_iff]
  constructor
  · intro collects mapping mem
    have vmas := collected.vmas.length_eq.trans collects.vmas.length_eq.symm
    have kernelMaps := collected.kernelMaps.length_eq.trans collects.kernelMaps.length_eq.symm
    exact ⟨later_eq_nil_of_length vmas mapping mem, later_eq_nil_of_length kernelMaps mapping mem⟩
  · intro harmless
    have vmas := collected.vmas
    have kernelMaps := collected.kernelMaps
    rw [linesOf_of_later_eq_nil fun mapping mem => (harmless mapping mem).1,
      List.forall₂_map_left_iff] at vmas
    rw [linesOf_of_later_eq_nil fun mapping mem => (harmless mapping mem).2,
      List.forall₂_map_left_iff] at kernelMaps
    exact ⟨vmas.imp fun _ _ => describes_of_described,
      kernelMaps.imp fun _ _ => describesKernel_of_ofLine⟩

end

/-! ## Runs -/

/-- The line that is hidden in a path. -/
def hiddenLine : Bytes := ascii "00001000-00002000 rw-p 00000000 00:00 0"

/-- A path that fills the buffer together with the fields in front of it. -/
def longPath : Bytes := 47 :: (List.replicate 4149 97 ++ hiddenLine)

theorem printed_longPath : 0 ∉ longPath ∧ 10 ∉ longPath := by
  have all : hiddenLine.all (fun byte => byte ≠ 0 ∧ byte ≠ 10) = true := rfl
  have hidden : ∀ byte ∈ hiddenLine, byte ≠ 0 ∧ byte ≠ 10 :=
    fun byte mem => of_decide_eq_true (List.all_eq_true.mp all byte mem)
  have printed : ∀ byte ∈ longPath, byte ≠ 0 ∧ byte ≠ 10 := by
    intro byte mem
    rcases List.mem_cons.mp mem with rfl | mem
    · decide
    · rcases List.mem_append.mp mem with filler | mem
      · rw [List.eq_of_mem_replicate filler]
        decide
      · exact hidden byte mem
  exact ⟨fun mem => (printed 0 mem).1 rfl, fun mem => (printed 10 mem).2 rfl⟩

/-- A mapping of a file that nothing may be done with. -/
def longPage : ShownMapping where
  start := 0x400000
  stop := 0x401000
  readable := false
  writable := false
  executable := false
  isPrivate := true
  fileOffset := 0
  major := 0
  minor := 0
  inode := 5
  name := longPath
  nonempty := by decide
  name_printed := printed_longPath
  name_visible := starts_cons rfl

theorem laterPieces_longPage : longPage.laterPieces = [hiddenLine ++ [10]] := by
  have fields : longPage.fields.length = 40 := by decide +kernel
  have padding : longPage.padding = List.replicate 33 32 := by
    rw [ShownMapping.padding, fields]
    rfl
  have parts : longPage.body ++ [10] =
      (longPage.fields ++ (longPage.padding ++ 47 :: List.replicate 4149 97)) ++
        (hiddenLine ++ [10]) := by
    have name : longPage.name = 47 :: (List.replicate 4149 97 ++ hiddenLine) := rfl
    simp only [ShownMapping.body, name, List.append_assoc, List.cons_append]
  have length : (longPage.fields ++ (longPage.padding ++ 47 :: List.replicate 4149 97)).length =
      mapsLineMax - 1 := by
    rw [List.length_append, List.length_append, fields, padding, List.length_replicate,
      List.length_cons, List.length_replicate]
    rfl
  rw [laterPieces, parts, List.drop_left' length]
  decide +kernel

theorem classify_longPage : classifyMapsLine longPage.line = .skipUnreadable := by
  have name : ∃ rest, longPage.line.path = 47 :: rest := ⟨_, rfl⟩
  rcases name with ⟨rest, name⟩
  have notKernel : isKernelMap longPage.line.path = false := by
    rw [name]
    rfl
  rw [classifyMapsLine, notKernel]
  rfl

theorem collects_longPage : ∃ table,
    collectVmas (some ⟨mapsText [longPage], false⟩) .plenty .empty = some table := by
  have pieces : fgetsLines mapsLineMax (mapsText [longPage]) =
      [(longPage.body ++ [10]).take (mapsLineMax - 1), hiddenLine ++ [10]] := by
    have text : mapsText [longPage] = (longPage.body ++ [10]) ++ [] := by
      rw [mapsText, List.flatMap_cons, List.flatMap_nil]
    rw [text, fgetsLines_mapping, laterPieces_longPage]
    rfl
  have first : ∀ table, collectVmaLine .plenty table
      ((longPage.body ++ [10]).take (mapsLineMax - 1)) = some table := by
    intro table
    rw [collectVmaLine, parseMapsLine_body]
    simp only [classify_longPage]
  have second : ∃ table, collectVmaLine .plenty ⟨[], 0, [], .empty⟩ (hiddenLine ++ [10]) =
      some table ∧ table.vmas ≠ [] := by
    have taken : (collectVmaLine .plenty ⟨[], 0, [], .empty⟩ (hiddenLine ++ [10])).map
        (·.vmas.isEmpty) = some false := by decide +kernel
    rcases Option.map_eq_some_iff.mp taken with ⟨table, second, some_⟩
    exact ⟨table, second, List.isEmpty_eq_false_iff.mp some_⟩
  rcases second with ⟨table, second, nonempty⟩
  refine ⟨table, collectVmas_eq_some_iff.mpr ⟨_, rfl, rfl, nonempty, ?_⟩⟩
  rw [pieces, List.foldlM_cons, first]
  exact second

theorem collectsLines_iff_longPage : ∃ table,
    collectVmas (some ⟨mapsText [longPage], false⟩) .plenty .empty = some table ∧
      (CollectsLines [longPage] table ↔ ∀ mapping ∈ [longPage], mapping.Harmless) := by
  rcases collects_longPage with ⟨table, collects⟩
  exact ⟨table, collects, collectsLines_iff collects⟩

/-- A mapping that is no more than text in a path becomes an entry. -/
theorem not_collectsLines :
    ¬ ∀ mappings readFails memory start table,
      collectVmas (some ⟨mapsText mappings, readFails⟩) memory start = some table →
        CollectsLines mappings table := by
  intro claimed
  rcases collects_longPage with ⟨table, collects⟩
  rcases collectVmas_eq_some_iff.mp collects with ⟨-, -, -, nonempty, -⟩
  have vmas := (claimed _ _ _ _ _ collects).vmas
  have none_ : [longPage].filter (·.vmaClass = .dump) = [] := by
    simp [vmaClass, classify_longPage]
  rw [none_, List.forall₂_nil_left_iff] at vmas
  exact nonempty vmas

end Ksnap
