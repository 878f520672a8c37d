import Hearth.House.Check

/-!
# Loading and unloading

What a module registers is written down as it is registered, so that exactly that can be taken away
again, newest first, also after a load that failed halfway.
-/

namespace Hearth.Act

/-- Adds a verb to those that can be used anywhere. -/
def addVerb (v : Verb) : Act Unit := do
  let h ← get
  match h.common.register? v.name v with
  | some common => set { h with common }
  | none => throw (.duplicateWord v.name h.common.scope)

/-- Adds a condition. -/
def addCondition (c : Condition) : Act Unit := do
  let h ← get
  match h.conditions.register? c.name c with
  | some conditions => set { h with conditions }
  | none => throw (.duplicateWord c.name h.conditions.scope)

/-- Adds a collection. -/
def addCollection (c : Collection) : Act Unit := do
  let h ← get
  if NameMap.has h.collections c.name then throw (.alreadyExists "collection" c.name)
  else set { h with collections := NameMap.insert c.name c h.collections }

/-- Takes a verb away from those that can be used anywhere, if it is there. -/
def dropVerb (name : Name) (h : House) : House :=
  match h.common.unregister? name with
  | some (_, common) => { h with common }
  | none => h

/-- Takes a condition away, if it is there. -/
def dropCondition (name : Name) (h : House) : House :=
  match h.conditions.unregister? name with
  | some (_, conditions) => { h with conditions }
  | none => h

/-- Takes a collection away, if it is there. -/
def dropCollection (name : Name) (h : House) : House :=
  { h with collections := NameMap.erase h.collections name }

/-- Adds a verb that can only be used outside all blocks. -/
def addTopVerb (v : Verb) : Act Unit := do
  let h ← get
  match h.top.register? v.name v with
  | some top => set { h with top }
  | none => throw (.duplicateWord v.name h.top.scope)

/-- Takes a verb away from those that can be used anywhere. -/
def removeVerb (name : Name) : Act Verb := do
  let h ← get
  match h.common.unregister? name with
  | some (v, common) => set { h with common }; pure v
  | none => throw (.notRegistered name h.common.scope)

/-- Takes a verb away from those that can only be used outside all blocks. -/
def removeTopVerb (name : Name) : Act Verb := do
  let h ← get
  match h.top.unregister? name with
  | some (v, top) => set { h with top }; pure v
  | none => throw (.notRegistered name h.top.scope)

/-- Takes a condition away. -/
def removeCondition (name : Name) : Act Condition := do
  let h ← get
  match h.conditions.unregister? name with
  | some (c, conditions) => set { h with conditions }; pure c
  | none => throw (.notRegistered name h.conditions.scope)

/-- Takes a collection away, if it is there. -/
def removeCollection (name : Name) (h : House) : Option Collection × House :=
  (NameMap.get? h.collections name, dropCollection name h)

/-- Writes down what a module registered. -/
def writeDown (module : Name) (x : Installed) : Act Unit := update fun h =>
  let entries := (NameMap.get? h.installed module).getD []
  { h with installed := NameMap.insert module (x :: entries) h.installed }

/-- Registers something for a module. -/
def provide (module : Name) : Provision → Act Unit
  | .verb v => do
    addVerb v
    writeDown module (.verb v.name)
  | .condition c => do
    addCondition c
    writeDown module (.condition c.name)
  | .collection c => do
    addCollection c
    writeDown module (.collection c.name)

/-- Takes away what was registered, if it is still there. -/
def takeAway (h : House) : Installed → House
  | .verb name => dropVerb name h
  | .condition name => dropCondition name h
  | .collection name => dropCollection name h

/-- Takes away everything that a module registered, newest first. -/
def takeAllAway (module : Name) (h : House) : House :=
  let entries := (NameMap.get? h.installed module).getD []
  entries.foldl takeAway { h with installed := NameMap.erase h.installed module }

/-- Registers everything that a module provides, up to the first that cannot be registered. -/
def install (m : Module) : Act Unit := do
  match m.feature with
  | .probe p =>
    update fun h => h.note (.loading m.name)
    if let some v := p.word then addVerb v
    if let some text := p.loadFault then throw (.usage text)
  | feature => (feature.provides).forM (provide m.name)

/-! ## What unloading takes down besides -/

/-- Takes all event handlers away. -/
def clearHandlers (h : House) : House :=
  h.handlers.foldl
    (fun h (id, _) =>
      match h.registry.unregister id with
      | .ok (_, registry) => { h with registry }
      | .error _ => h)
    { h with handlers := [] }

/-- Cancels all waits. -/
def cancelWaits (h : House) : House :=
  h.waits.foldl (fun h (_, w) => h.signal (.waitGone w.token)) { h with waits := [] }

/-- Takes away what a module registered, links apart: those have to be closed before. -/
def uninstall (m : Module) : Act Unit :=
  match m.feature with
  | .probe p => do
    update fun h => h.note (.unloading m.name)
    if let some v := p.word then update (dropVerb v.name)
    if let some text := p.unloadFault then throw (.usage text)
  | .handlers => update fun h => takeAllAway m.name (clearHandlers h)
  | .wait => update fun h => takeAllAway m.name (cancelWaits h)
  | _ => update (takeAllAway m.name)

/-- Makes a module known. -/
def addModule (m : Module) : Act Unit := do
  let h ← get
  if NameMap.has h.catalog m.name then throw (.alreadyExists "module" m.name)
  else set { h with catalog := NameMap.insert m.name m h.catalog }

/-- Puts a module among those that are loaded; one that is there already keeps its place. -/
def markLoaded (m : Module) (h : House) : House :=
  if h.isLoaded m.name then h else { h with loaded := h.loaded ++ [m] }

/-- Takes a module off those that are loaded. -/
def takeLoaded (name : Name) : Act Module := do
  let h ← get
  match h.loaded.find? (·.name == name) with
  | some m =>
    set { h with loaded := h.loaded.filter (·.name != name) }
    pure m
  | none => throw (.notFound "loaded module" name)

end Hearth.Act
