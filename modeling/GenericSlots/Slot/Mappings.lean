import GenericSlots.Slot.Construction
import GenericSlots.Slot.Mapping
set_option autoImplicit false

/-!
# Mappings on demand

The mappings of the classes of a hierarchy are compiled when they are asked for, and kept. A mapping
that is kept is not compiled again, so nothing is reported for it. What was kept before a failure
stays.

## Main definitions

* `GenericSlots.SlotMappings`: a hierarchy, its slot table and the mappings compiled so far.
* `GenericSlots.SlotMappings.compile`: the mapping of a class.
* `GenericSlots.SlotMappings.compileAll`: the mappings of all classes that have slots.

## Implementation notes

A mapping is kept only if all its events could be recorded at the verbosity in force, so operations
take the verbosity and answer with records.
-/

namespace GenericSlots

/-- The mappings of the classes of a hierarchy, as far as they were asked for. The hierarchy is kept
along with them, so it cannot change under the mappings that were made of it. -/
structure SlotMappings where
  /-- The hierarchy. -/
  hierarchy : Hierarchy
  /-- The slot table of the hierarchy. -/
  table : SlotTable
  /-- The mappings compiled so far. -/
  compiled : Std.HashMap ClassId (List Ty)

namespace SlotMappings

/-- Lays out a hierarchy, without compiling any mapping. It is refused for the same reasons as a
table. -/
def ofHierarchy (h : Hierarchy) (config : Config) : Run Event SlotError SlotMappings :=
  return ⟨h, ← SlotTable.build h config.slotPolicy, ∅⟩

/-- The mapping of a class, compiled unless it is kept, and what is kept afterwards. A failure keeps
nothing, so the same request fails in the same way again. -/
def compile (m : SlotMappings) (v : Verbosity) (c : ClassId) :
    Run Record SlotError (List Ty) × SlotMappings :=
  match m.compiled[c]? with
  | some mapping => (pure mapping, m)
  | none =>
    let run := (m.table.compile m.hierarchy c).observe m.hierarchy v
    match run.result with
    | .ok mapping => (run, { m with compiled := m.compiled.insert c mapping })
    | .error _ => (run, m)

/-- The mappings of those of some classes that have slots, and what is kept afterwards. The first
failure ends this, and what was compiled before it is kept. -/
def compileEach (m : SlotMappings) (v : Verbosity) :
    List ClassId → Run Record SlotError (List (ClassId × List Ty)) × SlotMappings
  | [] => (pure [], m)
  | c :: cs =>
    match m.table.numSlots m.hierarchy c with
    | .error e => (.ofResult (.error e), m)
    | .ok 0 => compileEach m v cs
    | .ok (_ + 1) =>
      let (run, m) := m.compile v c
      match run.result with
      | .error e => (⟨run.log, .error e⟩, m)
      | .ok mapping =>
        let (rest, m) := compileEach m v cs
        (⟨run.log ++ rest.log, ((c, mapping) :: ·) <$> rest.result⟩, m)

/-- The mappings of all classes that have slots, in the order of identifiers, and what is kept
afterwards. How many there are is reported at the end, and if this cannot be recorded the request
fails although all mappings are kept. -/
def compileAll (m : SlotMappings) (v : Verbosity) :
    Run Record SlotError (List (ClassId × List Ty)) × SlotMappings :=
  let (run, m) := m.compileEach v m.hierarchy.classIds
  (do
    let mappings ← run
    (Run.report (.mappingsCompiled mappings.length)).observe m.hierarchy v
    return mappings, m)

end SlotMappings

end GenericSlots
