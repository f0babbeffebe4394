import StoryMachine.Machine.Load
import StoryMachine.Proofs.Machine.Step
import StoryMachine.Proofs.Table.Mirror

/-!
# The copies of the tables agree with memory throughout a run

A loaded story has copies of its global variables and its object table that
agree with memory.  If no two regions of these tables share a byte, every local
action keeps this, and so does every run.  Then it makes no difference whether a
story asks a copy or reads the bytes (`ReadersAgree`).
-/

namespace StoryMachine

/-! ## Tables that agree with memory -/

namespace Machine

/-- The tables of a machine are mirrored, where they were in another machine. -/
def Coherent (first machine : Machine) : Prop :=
  Mirrored first.globals.base first.objects machine.memory machine.globals machine.objects

/-! ## Local actions -/

/-- Every local action keeps the copies coherent. -/
theorem Local.coherent {first : Machine} {α : Type} {action : Action α} (isLocal : Local action) :
    ∀ {a : α} {machine after : Machine}, action machine = .ok a after →
      first.Coherent machine → first.Coherent after := by
  induction isLocal with
  | pure b =>
      intro a machine after run coherent
      cases run
      exact coherent
  | throw e =>
      intro a machine after run coherent
      exact absurd run throw_ne_ok
  | bind _ _ ihFirst ihNext =>
      intro b machine after run coherent
      obtain ⟨a, middle, first, next⟩ := bind_eq_ok.1 run
      exact ihNext a next (ihFirst first coherent)
  | get =>
      intro a machine after run coherent
      cases run
      exact coherent
  | ask question =>
      intro a machine after run coherent
      obtain ⟨-, rfl⟩ := ask_eq_ok.1 run
      exact coherent
  | note level text =>
      intro a machine after run coherent
      cases run
      exact coherent
  | narrate level texts =>
      intro a machine after run coherent
      cases run
      exact coherent
  | print text =>
      intro a machine after run coherent
      obtain ⟨-, rfl⟩ := print_eq_ok.1 run
      exact coherent
  | readLine =>
      intro a machine after run coherent
      rcases readLine_eq_ok.1 run with ⟨-, -, rfl⟩ | ⟨_, _, -, -, rfl⟩
      · exact coherent
      · exact coherent
  | onGenerator draw =>
      intro a machine after run coherent
      cases run
      exact coherent
  | randomize =>
      intro a machine after run coherent
      cases run
      exact coherent
  | onFrame keeps =>
      intro a machine after run coherent
      obtain ⟨_, _, _, -, -, rfl⟩ := onFrame_eq_ok.1 run
      exact coherent
  | fetchByte =>
      intro a machine after run coherent
      obtain ⟨_, _, -, -, rfl⟩ := fetchByte_eq_ok.1 run
      exact coherent
  | printInline =>
      intro a machine after run coherent
      obtain ⟨_, _, _, _, _, -, -, -, rfl⟩ := printInline_eq_ok run
      exact coherent
  | setGlobal index value =>
      intro a machine after run coherent
      obtain ⟨_, _, set, rfl⟩ := setGlobal_eq_ok.1 run
      exact Mirrored.setGlobal coherent set
  | insert number destination =>
      intro a machine after run coherent
      obtain ⟨_, edit, rfl⟩ := onObjects_eq_ok.1 run
      refine ObjectStore.insert_mirrored ?_ edit
      exact coherent
  | remove number =>
      intro a machine after run coherent
      obtain ⟨_, edit, rfl⟩ := onObjects_eq_ok.1 run
      refine ObjectStore.remove_mirrored ?_ edit
      exact coherent
  | setAttribute number flag value =>
      intro a machine after run coherent
      obtain ⟨_, edit, rfl⟩ := onObjects_eq_ok.1 run
      refine ObjectStore.setAttribute_mirrored ?_ edit
      exact coherent
  | setProperty number property value =>
      intro a machine after run coherent
      obtain ⟨_, edit, rfl⟩ := onObjects_eq_ok.1 run
      refine ObjectStore.setProperty_mirrored ?_ edit
      exact coherent
  | overwrite within =>
      intro a machine after run coherent
      obtain ⟨_, _, _, _, write, refreshGlobals, refreshObjects, rfl⟩ := overwrite_eq_ok run
      exact Mirrored.refresh coherent (within _ _ _ write) refreshGlobals refreshObjects

theorem coherent_kept (first : Machine) : Kept first.Coherent where
  apart coherent := coherent
  isLocal isLocal run coherent := isLocal.coherent run coherent

/-! ## Loaded stories -/

/-- A story is loaded when its header and its tables can be read. -/
theorem load_eq_ok {image : Array UInt8} {settings : Settings} {entropy : Entropy}
    {loaded : Machine} :
    load image settings entropy = .ok loaded ↔
      ∃ header abbreviations dictionary objects globals,
        Header.read ⟨image⟩ = .ok header ∧ isSupported header.version = true ∧
        Abbreviations.load ⟨image⟩ header.abbreviations.toNat = .ok abbreviations ∧
        Dictionary.load ⟨image⟩ header.dictionary.toNat = .ok dictionary ∧
        ObjectTable.load ⟨image⟩ header.objects.toNat abbreviations = .ok objects ∧
        Globals.load ⟨image⟩ header.globals.toNat = .ok globals ∧
        loaded = {
          header, abbreviations, dictionary, objects, globals, settings
          memory := ⟨image⟩
          calls := [Frame.main header.initialPc.toNat]
          output := {}
          input := []
          generator := (initialGenerator settings entropy).1
          entropy := (initialGenerator settings entropy).2
          status := .running
          count := 0
          log := {} } := by
  simp only [load, except_bind_eq_ok]
  constructor
  · rintro ⟨header, read, isLoaded⟩
    split at isLoaded
    next supported =>
      simp only [except_bind_eq_ok, except_mapError_eq_ok] at isLoaded
      obtain ⟨abbreviations, loadAbbreviations, dictionary, loadDictionary, objects, loadObjects,
        globals, loadGlobals, isLoaded⟩ := isLoaded
      cases isLoaded
      exact ⟨header, abbreviations, dictionary, objects, globals, read, supported,
        loadAbbreviations, loadDictionary, loadObjects, loadGlobals, rfl⟩
    next => exact absurd isLoaded except_throw_ne_ok
  · rintro ⟨header, abbreviations, dictionary, objects, globals, read, supported,
      loadAbbreviations, loadDictionary, loadObjects, loadGlobals, rfl⟩
    refine ⟨header, read, ?_⟩
    rw [if_pos supported]
    simp only [except_bind_eq_ok, except_mapError_eq_ok]
    exact ⟨abbreviations, loadAbbreviations, dictionary, loadDictionary, objects, loadObjects,
      globals, loadGlobals, rfl⟩

/-- A loaded story has coherent copies when their regions are apart. -/
theorem load_coherent {image : Array UInt8} {settings : Settings} {entropy : Entropy}
    {loaded : Machine} (isLoaded : load image settings entropy = .ok loaded)
    (separated : Separated loaded.globals loaded.objects) : loaded.Coherent loaded := by
  obtain ⟨header, abbreviations, dictionary, objects, globals, -, -, -, -, loadObjects,
    loadGlobals, rfl⟩ := load_eq_ok.1 isLoaded
  obtain ⟨agrees, tidy, -⟩ := ObjectTable.load_agrees loadObjects
  exact ⟨Globals.load_agrees loadGlobals, agrees, separated, tidy, rfl, rfl⟩

/-! ## Readers -/

/-- What a machine reads from its copies is what it would read from memory. -/
structure ReadersAgree (machine : Machine) : Prop where
  /-- Global variables. -/
  get : ∀ index : UInt8, index.toNat < globalCount →
    machine.globals.get index =
      machine.memory.getWord (machine.globals.base + 2 * index.toNat)
  /-- Parents, siblings and children. -/
  link : ∀ (link : Link) (number : UInt16), number ≠ 0 → number.toNat ≤ machine.objects.size →
    machine.objects.link link number =
      (machine.memory.getByte (machine.objects.record number.toNat + link.offset)).map
        UInt8.toUInt16
  /-- Flags. -/
  testAttribute : ∀ (number flag : UInt16) (known : Attribute), number ≠ 0 →
    number.toNat ≤ machine.objects.size → Attribute.ofWord? flag = some known →
    machine.objects.testAttribute number flag =
      (machine.memory.getByte (machine.objects.record number.toNat + known.byte.val)).map
        fun byte => decide (byte &&& known.mask ≠ 0)
  /-- Properties that an object has. -/
  property : ∀ (number : UInt16) (property : UInt8) (object : Object) (found : Property),
    machine.objects.object number = .ok object → object.property? property = some found →
    machine.objects.property number property =
      if found.data.length = 1 then
        (machine.memory.getByte found.dataAddress).map UInt8.toUInt16
      else machine.memory.getWord found.dataAddress
  /-- Properties that an object lacks. -/
  default : ∀ (number : UInt16) (property : UInt8) (object : Object),
    machine.objects.object number = .ok object → object.property? property = none →
    1 ≤ property.toNat → property.toNat ≤ defaultCount →
    machine.objects.property number property =
      machine.memory.getWord (machine.objects.base + 2 * (property.toNat - 1))

/-- The readers of coherent copies agree with memory. -/
theorem Coherent.readersAgree {first machine : Machine} (coherent : first.Coherent machine) :
    machine.ReadersAgree := by
  constructor
  · intro index h
    rw [Globals.get, dif_pos h]
    exact (coherent.globalsAgree index.toNat h).symm
  · intro link number nonzero inside
    obtain ⟨object, asked, agrees⟩ :=
      coherent.objectsAgree.recordsAgree.exists_object nonzero inside
    rw [agrees.links link, ObjectTable.link, asked]
    rfl
  · intro number flag known nonzero inside named
    obtain ⟨object, asked, agrees⟩ :=
      coherent.objectsAgree.recordsAgree.exists_object nonzero inside
    rw [agrees.attributes known.byte.val known.byte.isLt, ObjectTable.testAttribute, asked, named]
    rfl
  · intro number property object found asked has
    have member := List.mem_of_find?_eq_some has
    have nonzero := ObjectTable.ne_zero_of_has asked has
    obtain ⟨h, rfl⟩ := (ObjectTable.object_eq_ok nonzero).1 asked
    rw [← ((coherent.objectsAgree.objects _ h).properties found member).value
      ((coherent.tidy _ h).nonempty found member)]
    exact ObjectTable.property_of_some asked has
  · intro number property object asked lacks positive small
    rw [coherent.objectsAgree.defaultValue positive small]
    exact ObjectTable.property_of_none asked lacks

/-! ## Runs -/

/-- Throughout every run of a story whose tables lie apart, whatever its input, its
output and the settings, both copies agree with memory and lie where they were
loaded, so that what is read from them is what is read from memory. -/
theorem run_coherent {image : Array UInt8} {settings : Settings} {entropy : Entropy}
    {input : List InputLine} {output : Output} {log : Log} {loaded after : Machine}
    (isLoaded : load image settings entropy = .ok loaded)
    (separated : Separated loaded.globals loaded.objects)
    (run : Runs { loaded with input, output, log } after) :
    after.globals.Agrees after.memory ∧ after.objects.Agrees after.memory ∧
      after.globals.base = loaded.globals.base ∧ after.objects.shape = loaded.objects.shape ∧
      after.ReadersAgree := by
  have coherent : loaded.Coherent after :=
    (coherent_kept loaded).runs run (load_coherent isLoaded separated)
  exact ⟨coherent.globalsAgree, coherent.objectsAgree, coherent.base, coherent.shape,
    coherent.readersAgree⟩

/-- A small story: header, global variables, an object with one property, a
dictionary without entries, and one instruction, which writes a word past the
copies to the first global variable. -/
def sampleStory : Array UInt8 :=
  let header : List UInt8 :=
    [3, 0, 0x80, 0, 0, 0, 0x02, 0x72, 0x02, 0x6e, 0x02, 0x20, 0, 0x40, 0, 0]
      ++ List.replicate 8 0 ++ [0, 0x40] ++ List.replicate 38 0
  let globals : List UInt8 := List.replicate (2 * globalCount) 0
  let objects : List UInt8 :=
    List.replicate (2 * defaultCount) 0 ++ [0, 0, 0, 0, 0, 0, 0, 0x02, 0x67]
      ++ [0, 0x22, 0x12, 0x34, 0, 0, 0]
  let dictionary : List UInt8 := [0, 4, 0, 0]
  let code : List UInt8 := [0xe1, 0x13, 0, 0x40, 0, 0xbe, 0xef]
  (header ++ globals ++ objects ++ dictionary ++ code).toArray

theorem run_coherent_sample : ∃ loaded after : Machine,
    load sampleStory {} (.ofSeed 0) = .ok loaded ∧ Separated loaded.globals loaded.objects ∧
      Runs { loaded with input := [], log := {} } after ∧ after.globals.get 0 = .ok 0xbeef ∧
      after.globals.Agrees after.memory ∧ after.objects.Agrees after.memory ∧
      after.ReadersAgree := by
  have checked : (match load sampleStory {} (.ofSeed 0) with
      | .error _ => false
      | .ok loaded => decide (Separated loaded.globals loaded.objects) &&
          steps? { loaded with input := [], log := {} }
            fun _ after => after.globals.get 0 = .ok 0xbeef) = true := by
    decide +kernel
  cases isLoaded : load sampleStory {} (.ofSeed 0) with
  | error e => simp [isLoaded] at checked
  | ok loaded =>
      rw [isLoaded] at checked
      obtain ⟨separated, checked⟩ := Bool.and_eq_true_iff.1 checked
      obtain ⟨outcome, after, stepped, written⟩ := exists_of_steps? checked
      have run : Runs { loaded with input := [], log := {} } after := .single ⟨outcome, stepped⟩
      have separated := of_decide_eq_true separated
      obtain ⟨globals, objects, -, -, readers⟩ := run_coherent isLoaded separated run
      exact ⟨loaded, after, rfl, separated, run, of_decide_eq_true written, globals, objects,
        readers⟩

end Machine

end StoryMachine
