import Ksnap.Engine.Maps
import Ksnap.Foundation.Printed

/-!
# Lines of `/proc/pid/maps`

How the kernel shows one mapping: its range, what may be done with it, where it lies in
its file, and its name in a column of its own. The name is printed as it is, except for
newlines, and goes on to the end of the line. `parse_maps_line` finds the same numbers
again, but of the name only its first word, and of that at most 4095 bytes.
-/

namespace Ksnap

open Foundation

/-- A mapping as the kernel shows it. An anonymous one without a name has an empty name. -/
structure ShownMapping where
  start : UInt64
  stop : UInt64
  readable : Bool
  writable : Bool
  executable : Bool
  isPrivate : Bool
  fileOffset : UInt64
  major : UInt32
  minor : UInt32
  inode : UInt64
  name : Bytes
  nonempty : start < stop
  name_printed : 0 ∉ name ∧ 10 ∉ name
  name_visible : Starts (isSpace · = false) name

namespace ShownMapping

/-- `rwxp`, with a dash for what is missing. -/
def privileges (mapping : ShownMapping) : Bytes :=
  [if mapping.readable then 114 else 45, if mapping.writable then 119 else 45,
    if mapping.executable then 120 else 45, if mapping.isPrivate then 112 else 115]

def device (mapping : ShownMapping) : Bytes :=
  printNumber 16 2 mapping.major.toNat ++ 58 :: printNumber 16 2 mapping.minor.toNat

/-- The fields in front of the name, with the blank behind the last one. -/
def fields (mapping : ShownMapping) : Bytes :=
  printNumber 16 8 mapping.start.toNat ++ 45 ::
    (printNumber 16 8 mapping.stop.toNat ++ 32 :: (mapping.privileges ++ 32 ::
      (printNumber 16 8 mapping.fileOffset.toNat ++ 32 :: (mapping.device ++ 32 ::
        (printNumber 10 1 mapping.inode.toNat ++ [32])))))

/-- The blanks that move a name to its column. -/
def padding (mapping : ShownMapping) : Bytes :=
  if mapping.name = [] then [] else List.replicate (72 - mapping.fields.length + 1) 32

/-- The line without its newline. -/
def body (mapping : ShownMapping) : Bytes :=
  mapping.fields ++ (mapping.padding ++ mapping.name)

/-- What `%4095s` reads of the name. -/
def visibleName (mapping : ShownMapping) : Bytes :=
  (mapping.name.takeWhile (!isSpace ·)).take (pathMax - 1)

/-- The mapping as the engine sees it. -/
def line (mapping : ShownMapping) : MapsLine where
  start := mapping.start
  stop := mapping.stop
  fileOffset := mapping.fileOffset
  privileges := mapping.privileges
  path := mapping.visibleName

end ShownMapping

/-- The text has a line of the mapping. -/
def Shows (text : Bytes) (mapping : ShownMapping) : Prop :=
  ∃ before after, EndsLine before ∧ text = before ++ (mapping.body ++ 10 :: after)

section

variable {mapping : ShownMapping}

open ShownMapping

/-! ## The front of a line -/

theorem isWord_privileges : IsWord mapping.privileges := by
  have letters : ∀ byte ∈ mapping.privileges, byte ∈ [45, 112, 114, 115, 119, 120] := by
    simp only [privileges, List.mem_cons, List.not_mem_nil, or_false]
    rintro byte (rfl | rfl | rfl | rfl)
    all_goals split <;> simp
  refine ⟨by simp [privileges], ?_⟩
  intro byte mem
  have visible : ([45, 112, 114, 115, 119, 120] : Bytes).all (!isSpace ·) = true := rfl
  simpa using List.all_eq_true.mp visible byte (letters byte mem)

theorem isWord_device : IsWord mapping.device := by
  have major : IsWord (printNumber 16 2 mapping.major.toNat) :=
    isWord_printNumber (by decide) le_rfl (by decide)
  have minor : IsWord (printNumber 16 2 mapping.minor.toNat) :=
    isWord_printNumber (by decide) le_rfl (by decide)
  refine ⟨by simp [device], ?_⟩
  intro byte mem
  rcases List.mem_append.mp mem with inMajor | rest
  · exact major.2 byte inMajor
  · rcases List.mem_cons.mp rest with rfl | inMinor
    · rfl
    · exact minor.2 byte inMinor

/-- The conversions in front of the path take the fields, whatever follows them. -/
theorem sscanf_fields (rest : Bytes) :
    sscanf mapsLineFormat (mapping.fields ++ rest) =
      .number mapping.start.toNat :: .number mapping.stop.toNat :: .text mapping.privileges ::
        .number mapping.fileOffset.toNat ::
          sscanf [.space, .word (pathMax - 1)] (32 :: rest) := by
  have offset : IsWord (printNumber 16 8 mapping.fileOffset.toNat) :=
    isWord_printNumber (by decide) le_rfl (by decide)
  have inode : IsWord (printNumber 10 1 mapping.inode.toNat) :=
    isWord_printNumber (by decide) (by decide) (by decide)
  have blank : ∀ rest, Starts (isDigitOf 16 · = false) (32 :: rest) := fun _ => starts_cons rfl
  have space : ∀ rest, Starts (isSpace · = true) (32 :: rest) := fun _ => starts_cons rfl
  simp only [mapsLineFormat, fields, List.append_assoc, List.cons_append, List.nil_append]
  rw [sscanf_number (by decide) mapping.start.toNat_lt (starts_cons rfl), sscanf, if_pos rfl,
    sscanf_number (by decide) mapping.stop.toNat_lt (blank _), sscanf_space isWord_privileges,
    sscanf_word isWord_privileges (by simp [privileges]) (space _), sscanf_space offset,
    sscanf_number (by decide) mapping.fileOffset.toNat_lt (blank _), sscanf_space isWord_device,
    sscanf_skipWord isWord_device (space _), sscanf_space inode, sscanf_skipWord inode (space _)]

theorem length_fields_le : mapping.fields.length ≤ 95 := by
  have number : ∀ value : UInt64, (printNumber 16 8 value.toNat).length ≤ 16 := fun value =>
    length_printNumber_le (by decide) (by decide) value.toNat_lt
  have half : ∀ value : UInt32, (printNumber 16 2 value.toNat).length ≤ 8 := fun value =>
    length_printNumber_le (by decide) (by decide) value.toNat_lt
  have inode : (printNumber 10 1 mapping.inode.toNat).length ≤ 20 :=
    length_printNumber_le (by decide) (by decide)
      (mapping.inode.toNat_lt.trans_le (by decide))
  have start := number mapping.start
  have stop := number mapping.stop
  have offset := number mapping.fileOffset
  have major := half mapping.major
  have minor := half mapping.minor
  simp only [fields, device, privileges, List.length_append, List.length_cons, List.length_nil]
  omega

theorem length_front_le : mapping.fields.length + mapping.padding.length ≤ 96 := by
  have fields := @length_fields_le mapping
  unfold padding
  split
  · rw [List.length_nil]
    omega
  · rw [List.length_replicate]
    omega

theorem mem_padding {byte : UInt8} (mem : byte ∈ mapping.padding) : byte = 32 := by
  unfold padding at mem
  split at mem
  · cases mem
  · exact List.eq_of_mem_replicate mem

theorem printed_of_mem_fields {byte : UInt8} (mem : byte ∈ mapping.fields) :
    byte ≠ 0 ∧ byte ≠ 10 := by
  have digits : ∀ {base width number : ℕ}, 2 ≤ base → base ≤ 16 →
      byte ∈ printNumber base width number → byte ≠ 0 ∧ byte ≠ 10 := by
    intro base width number two_le le_sixteen digit
    rcases exists_digit_of_mem two_le digit with ⟨value, lt, rfl⟩
    exact (printedDigit_spec value (by omega)).2.2.2.2.2.2
  have letters : byte ∈ mapping.privileges → byte ≠ 0 ∧ byte ≠ 10 := by
    intro letter
    have visible := isWord_privileges.2 byte letter
    refine ⟨?_, fun newline => by simp [newline, isSpace] at visible⟩
    rintro rfl
    simp only [privileges, List.mem_cons, List.not_mem_nil, or_false] at letter
    rcases letter with letter | letter | letter | letter
    all_goals split at letter <;> cases letter
  simp only [fields, device, List.mem_append, List.mem_cons, List.not_mem_nil, or_false] at mem
  rcases mem with number | rfl | number | rfl | letter | rfl | number | rfl |
    (number | rfl | number) | rfl | number | rfl
  · exact digits (by decide) (by decide) number
  · decide
  · exact digits (by decide) (by decide) number
  · decide
  · exact letters letter
  · decide
  · exact digits (by decide) (by decide) number
  · decide
  · exact digits (by decide) (by decide) number
  · decide
  · exact digits (by decide) (by decide) number
  · decide
  · exact digits (by decide) (by decide) number
  · decide

theorem notMem_body {byte : UInt8} (notPrinted : byte = 0 ∨ byte = 10)
    (notName : byte ∉ mapping.name) : byte ∉ mapping.body := by
  intro mem
  rcases List.mem_append.mp mem with inFields | rest
  · rcases printed_of_mem_fields inFields with ⟨notNul, notNewline⟩
    exact notPrinted.elim notNul notNewline
  · rcases List.mem_append.mp rest with inPadding | inName
    · rw [mem_padding inPadding] at notPrinted
      exact absurd notPrinted (by decide)
    · exact notName inName

/-! ## The name -/

/-- Enough of the line is in the first piece to show the first word of the name. -/
theorem takeWhile_name {count : ℕ} (enough : pathMax - 1 ≤ count) :
    (((mapping.name ++ [10]).take count).takeWhile (!isSpace ·)).take (pathMax - 1) =
      mapping.visibleName := by
  have word : (mapping.name ++ [10]).takeWhile (!isSpace ·) =
      mapping.name.takeWhile (!isSpace ·) := by
    rw [List.takeWhile_append]
    split
    · rename_i whole
      rw [(List.takeWhile_prefix _).eq_of_length whole]
      simp [isSpace]
    · rfl
  rw [List.take_takeWhile, List.take_take, Nat.min_eq_left enough, ← List.take_takeWhile, word,
    visibleName]

/-- The path is the first word of the name, if there is one. -/
theorem sscanf_name {count : ℕ} (enough : pathMax - 1 ≤ count) :
    sscanf [.space, .word (pathMax - 1)]
        (32 :: (mapping.padding ++ (mapping.name ++ [10]).take count)) =
      if mapping.visibleName = [] then [] else [.text mapping.visibleName] := by
  have positive : 0 < count := Nat.lt_of_lt_of_le (by decide) enough
  have blank : ∀ byte ∈ 32 :: mapping.padding, isSpace byte = true := by
    intro byte mem
    rcases List.mem_cons.mp mem with rfl | inPadding
    · rfl
    · rw [mem_padding inPadding]
      rfl
  have skips := @skipSpace_append _ ((mapping.name ++ [10]).take count) blank
  have value := @takeWhile_name mapping count enough
  rw [List.cons_append] at skips
  rw [sscanf, skips, sscanf]
  by_cases anonymous : mapping.name = []
  · have newline : (mapping.name ++ [10]).take count = [10] := by
      rw [anonymous, List.nil_append]
      exact List.take_of_length_le positive
    have none_ : mapping.visibleName = [] := by simp [visibleName, anonymous]
    rw [newline, if_pos none_]
    rfl
  · have starts : Starts (isSpace · = false) ((mapping.name ++ [10]).take count) := by
      intro byte first
      apply mapping.name_visible byte
      rwa [List.head?_take, if_neg positive.ne', List.head?_append_of_ne_nil _ anonymous] at first
    rw [skipSpace_of_starts starts, skipSpace_of_starts starts]
    simp only [value, sscanf]

/-- The engine finds the mapping in the piece of its line. -/
theorem parseMapsLine_body :
    parseMapsLine ((mapping.body ++ [10]).take (mapsLineMax - 1)) = some mapping.line := by
  have front := @length_front_le mapping
  have room : mapsLineMax - 1 = 4223 := rfl
  have width : pathMax - 1 = 4095 := rfl
  have nulFree : 0 ∉ (mapping.body ++ [10]).take (mapsLineMax - 1) := by
    intro mem
    rcases List.mem_append.mp (List.mem_of_mem_take mem) with inBody | newline
    · exact notMem_body (.inl rfl) mapping.name_printed.1 inBody
    · cases List.mem_singleton.mp newline
  have piece : (mapping.body ++ [10]).take (mapsLineMax - 1) = mapping.fields ++
      (mapping.padding ++ (mapping.name ++ [10]).take
        (mapsLineMax - 1 - mapping.fields.length - mapping.padding.length)) := by
    rw [body, List.append_assoc, List.append_assoc, List.take_append,
      List.take_of_length_le (by omega), List.take_append,
      List.take_of_length_le (by omega)]
  have fits : checkMapsFields mapping.start.toNat mapping.stop.toNat mapping.privileges
      mapping.fileOffset.toNat mapping.visibleName = some mapping.line := by
    have four : mapping.privileges.length = 4 := rfl
    rw [checkMapsFields, if_neg (by omega), UInt64.ofNat_toNat, UInt64.ofNat_toNat,
      if_neg (UInt64.not_le.mpr mapping.nonempty), UInt64.ofNat_toNat]
    rfl
  rw [parseMapsLine, cString_of_notMem nulFree, piece, sscanf_fields, sscanf_name (by omega)]
  by_cases none_ : mapping.visibleName = []
  · rw [if_pos none_]
    rw [none_] at fits
    exact fits
  · rw [if_neg none_]
    exact fits

/-- The mapping of a line is among those that the loops over the file see. -/
theorem line_mem_parsedLines {text : Bytes} (shows : Shows text mapping) :
    mapping.line ∈ parsedLines text := by
  rcases shows with ⟨before, after, ends, rfl⟩
  have unbroken : 10 ∉ mapping.body := notMem_body (.inr rfl) mapping.name_printed.2
  have mem := @mem_fgetsLines before mapping.body after ends unbroken (mapsLineMax - 2)
  exact List.mem_filterMap.mpr ⟨_, mem, parseMapsLine_body⟩

end

end Ksnap
