import StoryMachine.Machine.Load
import StoryMachine.Proofs.Table.Readable

/-!
# What comes of loading

Loading an image has one of four results, and the bytes of the image tell which
(`load_verdict`).  There is no room for a header, or the version is not supported,
or a table cannot be read, or the story is ready to run.  The four exclude each
other, so that each result says exactly what is the case (`load_exact`).
-/

namespace StoryMachine

variable {memory : Memory}

/-! ## Sections -/

/-- The tables that are read when a story is loaded, in their order. -/
def Section.tables : List Section := [.abbreviations, .dictionary, .objects, .globals]

/-- A section of an image can be read.  The header says where each table lies. -/
def Section.Readable (memory : Memory) : Section → Prop
  | .header => Header.length ≤ memory.size
  | .abbreviations =>
      ∃ base, memory.getWord 0x18 = .ok base ∧ Abbreviations.Readable memory base.toNat
  | .dictionary => ∃ base, memory.getWord 0x08 = .ok base ∧ Dictionary.Readable memory base.toNat
  | .objects => ∃ base, memory.getWord 0x0a = .ok base ∧ ObjectTable.Readable memory base.toNat
  | .globals => ∃ base, memory.getWord 0x0c = .ok base ∧ Globals.Readable memory base.toNat

/-- A table cannot be read, and all tables before it can. -/
def Section.FirstUnreadable (memory : Memory) (part : Section) : Prop :=
  ∃ before after, tables = before ++ part :: after ∧
    (∀ other ∈ before, other.Readable memory) ∧ ¬part.Readable memory

theorem Section.FirstUnreadable.mem {part : Section} (first : part.FirstUnreadable memory) :
    part ∈ tables := by
  obtain ⟨before, after, order, -, -⟩ := first
  rw [order]
  exact List.mem_append_right _ (.head _)

theorem Section.FirstUnreadable.unreadable {part : Section}
    (first : part.FirstUnreadable memory) : ¬part.Readable memory := by
  obtain ⟨_, _, -, -, unreadable⟩ := first
  exact unreadable

open Classical in
/-- Only one table is the first that cannot be read. -/
theorem Section.FirstUnreadable.unique {part other : Section}
    (first : part.FirstUnreadable memory) (second : other.FirstUnreadable memory) :
    part = other := by
  have found {part : Section} (first : part.FirstUnreadable memory) :
      tables.find? (fun part => decide (¬part.Readable memory)) = some part := by
    obtain ⟨before, after, order, readable, unreadable⟩ := first
    refine List.find?_eq_some_iff_append.2 ⟨decide_eq_true unreadable, before, after, order, ?_⟩
    intro other member
    simpa using readable other member
  exact Option.some.inj ((found first).symm.trans (found second))

/-! ## The header -/

namespace Header

/-- A header has the words of an image at their addresses. -/
structure Reads (memory : Memory) (header : Header) : Prop where
  large : length ≤ memory.size
  version : memory.getByte 0x00 = .ok header.version
  initialPc : memory.getWord 0x06 = .ok header.initialPc
  dictionary : memory.getWord 0x08 = .ok header.dictionary
  objects : memory.getWord 0x0a = .ok header.objects
  globals : memory.getWord 0x0c = .ok header.globals
  abbreviations : memory.getWord 0x18 = .ok header.abbreviations

theorem reads_of_fields {header : Header} (large : length ≤ memory.size)
    (read : fields memory = .ok header) : Reads memory header := by
  simp only [fields, except_bind_eq_ok, except_pure_eq_ok] at read
  obtain ⟨_, -, version, readVersion, _, -, _, -, _, -, initialPc, readPc, dictionary,
    readDictionary, objects, readObjects, globals, readGlobals, _, -, abbreviations,
    readAbbreviations, _, -, _, -, _, -, rfl⟩ := read
  exact ⟨large, readVersion, readPc, readDictionary, readObjects, readGlobals, readAbbreviations⟩

/-- All fields lie among the first bytes. -/
theorem succeeds_fields (large : length ≤ memory.size) : Succeeds (fields memory) := by
  have byte {address : Nat} (low : address < length) : Succeeds (memory.getByte address) :=
    Memory.exists_getByte (Nat.lt_of_lt_of_le low large)
  have word {address : Nat} (low : address + 1 < length) : Succeeds (memory.getWord address) :=
    Memory.exists_getWord (Nat.lt_of_lt_of_le low large)
  have serial : Succeeds (memory.slice 0x12 6) :=
    Memory.exists_slice (Nat.le_trans (by decide) large)
  exact .bind serial fun _ => .bind (byte (by decide)) fun _ => .bind (byte (by decide)) fun _ =>
    .bind (word (by decide)) fun _ => .bind (word (by decide)) fun _ =>
    .bind (word (by decide)) fun _ => .bind (word (by decide)) fun _ =>
    .bind (word (by decide)) fun _ => .bind (word (by decide)) fun _ =>
    .bind (word (by decide)) fun _ => .bind (word (by decide)) fun _ =>
    .bind (word (by decide)) fun _ => .bind (word (by decide)) fun _ =>
    .bind (word (by decide)) fun _ => .pure _

/-- An image that is large enough has a header. -/
theorem exists_read (large : length ≤ memory.size) :
    ∃ header, read memory = .ok header ∧ Reads memory header := by
  obtain ⟨header, isRead⟩ := succeeds_fields large
  refine ⟨header, ?_, reads_of_fields large isRead⟩
  rw [read, if_neg (Nat.not_lt.2 large), isRead]
  rfl

namespace Reads

variable {header : Header}

theorem succeeds_abbreviations (reads : Reads memory header) :
    Succeeds (Abbreviations.load memory header.abbreviations.toNat) ↔
      Section.abbreviations.Readable memory := by
  simp [Section.Readable, reads.abbreviations, Abbreviations.succeeds_load]

theorem succeeds_dictionary (reads : Reads memory header) :
    Succeeds (Dictionary.load memory header.dictionary.toNat) ↔
      Section.dictionary.Readable memory := by
  simp [Section.Readable, reads.dictionary, Dictionary.succeeds_load]

theorem succeeds_objects (reads : Reads memory header) (abbreviations : Abbreviations) :
    Succeeds (ObjectTable.load memory header.objects.toNat abbreviations) ↔
      Section.objects.Readable memory := by
  simp [Section.Readable, reads.objects, ObjectTable.succeeds_load]

theorem succeeds_globals (reads : Reads memory header) :
    Succeeds (Globals.load memory header.globals.toNat) ↔ Section.globals.Readable memory := by
  simp [Section.Readable, reads.globals, Globals.succeeds_load]

end Reads

end Header

/-! ## The result -/

namespace Machine

/-- An image has a header, and its version is supported. -/
def Runnable (memory : Memory) : Prop :=
  Header.length ≤ memory.size ∧
    ∃ version, memory.getByte 0 = .ok version ∧ 1 ≤ version.toNat ∧ version.toNat ≤ 3

/-- A machine is ready to run the story of an image from its first instruction. -/
structure Started (memory : Memory) (machine : Machine) : Prop where
  status : machine.status = .running
  depth : machine.depth = 1
  count : machine.count = 0
  pc : (memory.getWord 6).map UInt16.toNat = .ok machine.pc

/-- What comes of loading an image. -/
inductive Verdict (memory : Memory) : Except LoadError Machine → Prop where
  | tooSmall : memory.size < Header.length → Verdict memory (.error (.tooSmall memory.size))
  | unsupported {version : UInt8} : Header.length ≤ memory.size →
      memory.getByte 0 = .ok version → ¬(1 ≤ version.toNat ∧ version.toNat ≤ 3) →
      Verdict memory (.error (.unsupportedVersion version))
  | unreadable {part : Section} {cause : Error} : Runnable memory →
      part.FirstUnreadable memory → memory.Outside cause →
      Verdict memory (.error (.unreadable part cause))
  | loaded {machine : Machine} : Runnable memory →
      (∀ part ∈ Section.tables, part.Readable memory) → Started memory machine →
      Verdict memory (.ok machine)

namespace Verdict

/-- A table is read, and what follows depends on it. -/
theorem table {α : Type} {part : Section} (before : List Section) {after : List Section}
    {loader : Except Error α} {next : α → Except LoadError Machine}
    (runnable : Runnable memory) (order : Section.tables = before ++ part :: after)
    (earlier : ∀ other ∈ before, other.Readable memory)
    (exact : Succeeds loader ↔ part.Readable memory) (fails : FailsOnly memory.Outside loader)
    (rest : ∀ a, part.Readable memory → Verdict memory (next a)) :
    Verdict memory (loader.mapError (.unreadable part) >>= next) := by
  cases result : loader with
  | ok a => exact rest a (exact.1 ⟨a, result⟩)
  | error cause =>
      refine .unreadable runnable ⟨before, after, order, earlier, ?_⟩ (fails cause result)
      intro readable
      have no := exact.2 readable
      rw [result] at no
      exact Succeeds.not_error no

-- Each result is the only one of its kind, since what it says of the image is at odds
-- with what the other three say.
variable {result : Except LoadError Machine}

theorem tooSmall_iff (verdict : Verdict memory result) {size : Nat} :
    result = .error (.tooSmall size) ↔ size = memory.size ∧ memory.size < Header.length := by
  constructor
  · rintro rfl
    cases verdict with
    | tooSmall small => exact ⟨rfl, small⟩
  · rintro ⟨rfl, small⟩
    cases verdict with
    | tooSmall => rfl
    | unsupported large => exact absurd small (Nat.not_lt.2 large)
    | unreadable runnable => exact absurd small (Nat.not_lt.2 runnable.1)
    | loaded runnable => exact absurd small (Nat.not_lt.2 runnable.1)

theorem unsupported_iff (verdict : Verdict memory result) {version : UInt8} :
    result = .error (.unsupportedVersion version) ↔
      Header.length ≤ memory.size ∧ memory.getByte 0 = .ok version ∧
        ¬(1 ≤ version.toNat ∧ version.toNat ≤ 3) := by
  constructor
  · rintro rfl
    cases verdict with
    | unsupported large read unknown => exact ⟨large, read, unknown⟩
  · rintro ⟨large, read, unknown⟩
    have stuck : ¬Runnable memory := by
      rintro ⟨-, other, same, known⟩
      rw [read] at same
      cases same
      exact unknown known
    cases verdict with
    | tooSmall small => exact absurd small (Nat.not_lt.2 large)
    | unsupported _ same =>
        rw [read] at same
        cases same
        rfl
    | unreadable runnable => exact absurd runnable stuck
    | loaded runnable => exact absurd runnable stuck

/-- An image that can be run is loaded, or one of its tables cannot be read. -/
theorem cases_of_runnable (verdict : Verdict memory result) (runnable : Runnable memory) :
    (∃ part cause, result = .error (.unreadable part cause) ∧ part.FirstUnreadable memory) ∨
      ((∃ machine, result = .ok machine) ∧ ∀ part ∈ Section.tables, part.Readable memory) := by
  obtain ⟨large, version, read, known⟩ := runnable
  cases verdict with
  | tooSmall small => exact absurd small (Nat.not_lt.2 large)
  | unsupported _ same unknown =>
      rw [read] at same
      cases same
      exact absurd known unknown
  | unreadable _ first => exact .inl ⟨_, _, rfl, first⟩
  | loaded _ readable => exact .inr ⟨⟨_, rfl⟩, readable⟩

theorem unreadable_iff (verdict : Verdict memory result) {part : Section} :
    (∃ cause, result = .error (.unreadable part cause)) ↔
      Runnable memory ∧ part.FirstUnreadable memory := by
  constructor
  · rintro ⟨cause, rfl⟩
    cases verdict with
    | unreadable runnable first => exact ⟨runnable, first⟩
  · rintro ⟨runnable, first⟩
    obtain ⟨other, cause, rfl, same⟩ | ⟨-, readable⟩ := verdict.cases_of_runnable runnable
    · cases same.unique first
      exact ⟨cause, rfl⟩
    · exact absurd (readable part first.mem) first.unreadable

theorem loaded_iff (verdict : Verdict memory result) :
    (∃ machine, result = .ok machine) ↔
      Runnable memory ∧ ∀ part ∈ Section.tables, part.Readable memory := by
  constructor
  · rintro ⟨machine, rfl⟩
    cases verdict with
    | loaded runnable readable => exact ⟨runnable, readable⟩
  · rintro ⟨runnable, readable⟩
    obtain ⟨part, -, -, first⟩ | ⟨loaded, -⟩ := verdict.cases_of_runnable runnable
    · exact absurd (readable part first.mem) first.unreadable
    · exact loaded

end Verdict

theorem isSupported_iff {version : UInt8} :
    isSupported version = true ↔ 1 ≤ version.toNat ∧ version.toNat ≤ 3 := by
  simp only [isSupported, Bool.and_eq_true, decide_eq_true_iff, UInt8.le_iff_toNat_le]
  exact Iff.rfl

/-- The bytes of an image tell what comes of loading it. -/
theorem load_verdict (image : Array UInt8) (settings : Settings) (entropy : Entropy) :
    Verdict ⟨image⟩ (load image settings entropy) := by
  by_cases small : Memory.size ⟨image⟩ < Header.length
  · have failed : load image settings entropy = .error (.tooSmall (Memory.size ⟨image⟩)) := by
      simp only [load, Header.read, if_pos small]
      rfl
    rw [failed]
    exact .tooSmall small
  · obtain ⟨header, isRead, reads⟩ := Header.exists_read (Nat.not_lt.1 small)
    simp only [load, isRead]
    show Verdict ⟨image⟩ (if isSupported header.version then _ else _)
    split
    next supported =>
      have runnable : Runnable ⟨image⟩ :=
        ⟨reads.large, header.version, reads.version, isSupported_iff.1 supported⟩
      refine .table [] runnable rfl (by simp) reads.succeeds_abbreviations
        (Abbreviations.load_failsOnly _ _) ?_
      intro abbreviations first
      refine .table [.abbreviations] runnable rfl (by simp [first]) reads.succeeds_dictionary
        (Dictionary.load_failsOnly _ _) ?_
      intro dictionary second
      refine .table [.abbreviations, .dictionary] runnable rfl (by simp [first, second])
        (reads.succeeds_objects abbreviations) (ObjectTable.load_failsOnly _ _ _) ?_
      intro objects third
      refine .table [.abbreviations, .dictionary, .objects] runnable rfl
        (by simp [first, second, third]) reads.succeeds_globals (Globals.load_failsOnly _ _) ?_
      intro globals fourth
      refine .loaded runnable (by simp [Section.tables, first, second, third, fourth])
        ⟨rfl, rfl, rfl, ?_⟩
      rw [reads.initialPc]
      rfl
    next unknown =>
      exact .unsupported reads.large reads.version (unknown ∘ isSupported_iff.2)

/-- Loading always has a result, and each of its results says exactly what is the
case.  An image that is too small or that has another version is turned down before
any of its tables is read.  Of the tables, the first that cannot be read is the one
that is named, and it is always an access outside the image that ends its reading. -/
theorem load_exact (image : Array UInt8) (settings : Settings) (entropy : Entropy) :
    (∀ size, load image settings entropy = .error (.tooSmall size) ↔
      size = image.size ∧ image.size < 64) ∧
    (∀ version, load image settings entropy = .error (.unsupportedVersion version) ↔
      64 ≤ image.size ∧ image[0]? = some version ∧
        ¬(1 ≤ version.toNat ∧ version.toNat ≤ 3)) ∧
    (∀ part, (∃ cause, load image settings entropy = .error (.unreadable part cause)) ↔
      Runnable ⟨image⟩ ∧ part.FirstUnreadable ⟨image⟩) ∧
    (∀ part cause, load image settings entropy = .error (.unreadable part cause) →
      part ≠ .header ∧ ∃ address, cause = .outOfBounds address image.size) ∧
    (∀ reason, load image settings entropy ≠ .error (.invalidSettings reason)) ∧
    ((∃ machine, load image settings entropy = .ok machine) ↔
      Runnable ⟨image⟩ ∧ ∀ part ∈ Section.tables, part.Readable ⟨image⟩) ∧
    ∀ machine, load image settings entropy = .ok machine → Started ⟨image⟩ machine := by
  have verdict := load_verdict image settings entropy
  refine ⟨fun size => verdict.tooSmall_iff, ?_, fun part => verdict.unreadable_iff, ?_, ?_,
    verdict.loaded_iff, ?_⟩
  · intro version
    rw [verdict.unsupported_iff, Memory.getByte_eq_ok]
    exact Iff.rfl
  · intro part cause failed
    rw [failed] at verdict
    cases verdict with
    | unreadable _ first outside =>
        refine ⟨?_, outside⟩
        rintro rfl
        exact absurd first.mem (by decide)
  · intro reason failed
    rw [failed] at verdict
    cases verdict
  · intro machine loaded
    rw [loaded] at verdict
    cases verdict with
    | loaded _ _ started => exact started

end Machine

end StoryMachine
