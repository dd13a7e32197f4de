import Mathlib.Data.List.Nodup
import ArmReach.Logging.Registry
import ArmReach.Proofs.Logging.Patterns
/-!
# Level patterns in the logger registry

The registry sets logger levels from level patterns along two paths.

* Registering a logger under a name lets every stored entry whose pattern matches the name and
  whose level name reads set the level, later entries last (`levelOf_register`).
* Updating the patterns stores them, skips the entries whose pattern is not valid, stops at a
  valid entry whose level name does not read (`updateConfig_ok_iff`), and sets every registered
  logger to the level of the last valid entry matching its name (`levelOf_updateConfig`).

Both paths are said through `patternLevel ps n`, the level that the last entry of `ps` matching
`n` with a level name that reads gives `n`: registration reads it of all stored entries, the
update of the valid ones. So a logger made after an update gets the level an update would give
it exactly when the entries matching its name have valid patterns (`patternLevel_validEntries`);
a pattern such as `x y`, refused by validation, still matches the name `x y` at registration.

The statements hold in every registry the logging operations reach (`Reachable`): there every
name is registered once, every logger under at most one name, and only loggers that exist
(`WellNamed`).

An update that fails changes no logger, but it stores its entries all the same
(`updateConfig_failure_stores_entries`): the loggers registered after it are set by the entries
of the update that failed, not by those stored before it
(`failed_update_sets_level_of_later_logger`).
-/

namespace ArmReach

namespace Logging

/-- A level reads back from its lower-case name. -/
theorem Level.parse_entryName (l : Level) : Level.parse l.entryName = .ok l := by
  -- level names are already lower case
  have hlower : l.entryName.map Level.lowerChar = l.entryName := by
    rw [String.map_eq_internal]
    cases l <;> decide
  rw [Level.parse, hlower]
  cases l <;> rfl

namespace PatternLevel

/-- The level the entry `p` gives the name `n` over `acc`: its own when its pattern matches `n`
and its level name reads, else `acc`. -/
def levelFor (p : PatternLevel) (n : String) (acc : Option Level) : Option Level :=
  if Pattern.matchesName p.pattern n then
    match Level.parse p.level with
    | .ok l => some l
    | .error _ => acc
  else acc

theorem levelFor_eq_or (p : PatternLevel) (n : String) (acc : Option Level) :
    p.levelFor n acc = (p.levelFor n none).or acc := by
  unfold levelFor
  split
  · split <;> simp
  · simp

end PatternLevel

namespace Registry

/-- The level the entries `ps` give the name `n`: that of the last entry whose pattern matches
`n` and whose level name reads, if any. -/
def patternLevel (ps : List PatternLevel) (n : String) : Option Level :=
  ps.foldl (fun acc p => p.levelFor n acc) none

/-- The entries whose pattern is valid. -/
def validEntries (ps : List PatternLevel) : List PatternLevel :=
  ps.filter fun p => Pattern.isValid p.pattern

/-- Folding entries over a level found so far keeps it unless an entry gives one. -/
theorem foldl_levelFor (ps : List PatternLevel) (n : String) (acc : Option Level) :
    ps.foldl (fun acc p => p.levelFor n acc) acc = (patternLevel ps n).or acc := by
  induction ps generalizing acc with
  | nil => simp [patternLevel]
  | cons p ps ih =>
    simp only [patternLevel, List.foldl_cons] at ih ⊢
    rw [ih, ih (p.levelFor n none), Option.or_assoc, ← PatternLevel.levelFor_eq_or]

theorem patternLevel_cons (p : PatternLevel) (ps : List PatternLevel) (n : String) :
    patternLevel (p :: ps) n = (patternLevel ps n).or (p.levelFor n none) :=
  foldl_levelFor ps n _

theorem validEntries_cons (p : PatternLevel) (ps : List PatternLevel) :
    validEntries (p :: ps) =
      if Pattern.isValid p.pattern then p :: validEntries ps else validEntries ps := by
  simp only [validEntries, List.filter_cons]

/-- The valid entries give a name the level all entries give it when every entry matching the
name has a valid pattern. -/
theorem patternLevel_validEntries {ps : List PatternLevel} {n : String}
    (h : ∀ p ∈ ps, Pattern.matchesName p.pattern n = true → Pattern.isValid p.pattern = true) :
    patternLevel (validEntries ps) n = patternLevel ps n := by
  induction ps with
  | nil => rfl
  | cons p ps ih =>
    have ih' := ih fun q hq => h q (List.mem_cons_of_mem p hq)
    rw [validEntries_cons, patternLevel_cons]
    by_cases hv : Pattern.isValid p.pattern = true
    · rw [if_pos hv, patternLevel_cons, ih']
    · -- an entry refused by validation does not match the name, so it gives no level
      have hn : Pattern.matchesName p.pattern n = false := by
        cases hp : Pattern.matchesName p.pattern n with
        | false => rfl
        | true => exact absurd (h p List.mem_cons_self hp) hv
      rw [if_neg hv, ih']
      simp [PatternLevel.levelFor, hn]

/-! ### Setting levels -/

/-- The name of logger `i`. -/
def loggerName (r : Registry) (i : Nat) : String := (r.loggers.getD i default).name

/-- `r'` differs from `r` at most in the levels of its loggers. -/
structure LevelsOnly (r r' : Registry) : Prop where
  names : r'.names = r.names
  patterns : r'.patterns = r.patterns
  size : r'.loggers.size = r.loggers.size
  loggerName : ∀ j, r'.loggerName j = r.loggerName j

theorem LevelsOnly.refl (r : Registry) : LevelsOnly r r := ⟨rfl, rfl, rfl, fun _ => rfl⟩

theorem LevelsOnly.trans {r r' r'' : Registry} (h : LevelsOnly r r') (h' : LevelsOnly r' r'') :
    LevelsOnly r r'' :=
  ⟨h'.names.trans h.names, h'.patterns.trans h.patterns, h'.size.trans h.size,
    fun j => (h'.loggerName j).trans (h.loggerName j)⟩

theorem levelsOnly_setLevel (r : Registry) (i : Nat) (l : Level) :
    LevelsOnly r (r.setLevel i l) := by
  refine ⟨rfl, rfl, by simp [setLevel], fun j => ?_⟩
  simp only [loggerName, setLevel, Array.getD_eq_getD_getElem?, Array.getElem?_modify]
  split
  · cases r.loggers[j]? <;> rfl
  · rfl

/-- A fold whose every step sets levels only sets levels. -/
theorem levelsOnly_foldl {α : Type} {f : Registry → α → Registry}
    (hf : ∀ s a, LevelsOnly s (f s a)) (l : List α) (s : Registry) :
    LevelsOnly s (l.foldl f s) := by
  induction l generalizing s with
  | nil => exact LevelsOnly.refl s
  | cons a l ih => exact (hf s a).trans (ih (f s a))

section Levels

variable {r : Registry} {i j : Nat} {l : Level}

theorem levelOf_setLevel_of_ne (h : j ≠ i) : (r.setLevel i l).levelOf j = r.levelOf j := by
  simp [levelOf, setLevel, Array.getElem?_modify, Ne.symm h]

theorem levelOf_setLevel (h : i < r.loggers.size) :
    (r.setLevel i l).levelOf j = if j = i then l else r.levelOf j := by
  split
  · subst j
    simp [levelOf, setLevel, Array.getElem_modify, h]
  · exact levelOf_setLevel_of_ne ‹_›

end Levels

/-! ### Registration -/

/-- What `register` does for one stored entry. -/
def registerStep (name : String) (i : Nat) (s : Registry) (p : PatternLevel) : Registry :=
  if Pattern.matchesName p.pattern name then
    match Level.parse p.level with
    | .ok l => s.setLevel i l
    | .error _ => s
  else s

theorem register_eq (r : Registry) (name : String) (i : Nat) :
    r.register name i = r.patterns.foldl (registerStep name i)
      { r with names := r.names.filter (fun m => m.1 != name) ++ [(name, i)] } := rfl

theorem registerStep_eq (name : String) (i : Nat) (s : Registry) (p : PatternLevel) :
    registerStep name i s p =
      match p.levelFor name none with
      | some l => s.setLevel i l
      | none => s := by
  unfold registerStep PatternLevel.levelFor
  split
  · split <;> rfl
  · rfl

theorem levelsOnly_registerStep (name : String) (i : Nat) (s : Registry) (p : PatternLevel) :
    LevelsOnly s (registerStep name i s p) := by
  rw [registerStep_eq]
  split
  · exact levelsOnly_setLevel s i _
  · exact LevelsOnly.refl s

/-- One stored entry sets logger `i` to the level it gives the name, if any. -/
theorem levelOf_registerStep (name : String) (p : PatternLevel) (s : Registry) {i : Nat}
    (hi : i < s.loggers.size) (k : Nat) :
    (registerStep name i s p).levelOf k =
      if k = i then (p.levelFor name none).getD (s.levelOf i) else s.levelOf k := by
  rw [registerStep_eq]
  cases p.levelFor name none with
  | some l => simp [levelOf_setLevel hi]
  | none => simp only [Option.getD_none]; split <;> simp_all

/-- The entries folded by registration set logger `i` to the level they give its name. -/
theorem levelOf_foldl_registerStep (name : String) (ps : List PatternLevel) (s : Registry)
    {i : Nat} (hi : i < s.loggers.size) (j : Nat) :
    (ps.foldl (registerStep name i) s).levelOf j =
      if j = i then (patternLevel ps name).getD (s.levelOf i) else s.levelOf j := by
  induction ps generalizing s with
  | nil =>
    simp only [List.foldl_nil, patternLevel, Option.getD_none]
    split <;> simp_all
  | cons p ps ih =>
    have hsize := (levelsOnly_registerStep name i s p).size
    rw [List.foldl_cons, ih _ (hsize ▸ hi), patternLevel_cons, Option.getD_or,
      levelOf_registerStep name p s hi i, levelOf_registerStep name p s hi j]
    split <;> simp_all

section Register

variable (r : Registry) (name : String) (i : Nat)

@[simp] theorem names_register :
    (r.register name i).names = r.names.filter (fun m => m.1 != name) ++ [(name, i)] :=
  (levelsOnly_foldl (levelsOnly_registerStep name i) _ _).names

@[simp] theorem patterns_register : (r.register name i).patterns = r.patterns :=
  (levelsOnly_foldl (levelsOnly_registerStep name i) _ _).patterns

@[simp] theorem size_register : (r.register name i).loggers.size = r.loggers.size :=
  (levelsOnly_foldl (levelsOnly_registerStep name i) _ _).size

/-- Registering logger `i` under `name` sets it to the level the stored entries give the name,
and leaves every other logger alone. -/
theorem levelOf_register {i : Nat} (hi : i < r.loggers.size) (j : Nat) :
    (r.register name i).levelOf j =
      if j = i then (patternLevel r.patterns name).getD (r.levelOf i) else r.levelOf j := by
  rw [register_eq]
  exact levelOf_foldl_registerStep name r.patterns
    { r with names := r.names.filter (fun m => m.1 != name) ++ [(name, i)] } hi j

end Register

/-! ### Making loggers -/

/-- A logger added at the end is the only one whose level is new. -/
theorem level_getD_push (a : Array Logger) (lg : Logger) (j : Nat) :
    (a.push lg |>.getD j default).level =
      if j = a.size then lg.level else (a.getD j default).level := by
  simp only [Array.getD_eq_getD_getElem?, Array.getElem?_push]
  split <;> rfl

section Make

variable (r : Registry) (name : String) (level : Level) (aps : List Appender)

theorem snd_make : (r.make name level aps).2 = r.loggers.size := rfl

theorem names_make :
    (r.make name level aps).1.names = if name = "" then r.names
      else r.names.filter (fun m => m.1 != name) ++ [(name, r.loggers.size)] := by
  unfold make
  by_cases hn : name = "" <;> simp [hn]

@[simp] theorem patterns_make : (r.make name level aps).1.patterns = r.patterns := by
  unfold make
  split <;> simp

@[simp] theorem size_make : (r.make name level aps).1.loggers.size = r.loggers.size + 1 := by
  unfold make
  split <;> simp

/-- A new logger starts at its own level, or at the level the stored entries give its name when
it has one; the other loggers keep theirs. -/
theorem levelOf_make (j : Nat) :
    (r.make name level aps).1.levelOf j =
      if j = r.loggers.size then
        if name = "" then level else (patternLevel r.patterns name).getD level
      else r.levelOf j := by
  unfold make
  dsimp only
  by_cases hn : name = ""
  · rw [if_pos (String.isEmpty_iff.mpr hn), if_pos hn]
    simp only [levelOf, level_getD_push]
  · rw [if_neg (by simpa [String.isEmpty_iff] using hn), levelOf_register _ name (by simp),
      if_neg hn]
    simp only [levelOf, level_getD_push]
    by_cases hj : j = r.loggers.size <;> simp [hj]

end Make

section Sublogger

variable (r : Registry) (i : Nat) (sub : String)

/-- The name of the sublogger `sub` of logger `i`: `parent.sub`, or `sub` under an unnamed
parent. -/
def subloggerName : String :=
  if (r.loggerName i).isEmpty then sub else r.loggerName i ++ "." ++ sub

theorem sublogger_eq :
    r.sublogger i sub =
      let lg : Logger := ⟨r.subloggerName i sub, r.levelOf i, (r.loggers.getD i default).appenders⟩
      (({ r with loggers := r.loggers.push lg } : Registry).register (r.subloggerName i sub)
        r.loggers.size, r.loggers.size) := rfl

theorem snd_sublogger : (r.sublogger i sub).2 = r.loggers.size := rfl

@[simp] theorem patterns_sublogger : (r.sublogger i sub).1.patterns = r.patterns := by
  simp [sublogger_eq]

@[simp] theorem size_sublogger : (r.sublogger i sub).1.loggers.size = r.loggers.size + 1 := by
  simp [sublogger_eq]

/-- A sublogger starts at its parent's level, or at the level the stored entries give its name;
the other loggers keep theirs. -/
theorem levelOf_sublogger (j : Nat) :
    (r.sublogger i sub).1.levelOf j =
      if j = r.loggers.size then
        (patternLevel r.patterns (r.subloggerName i sub)).getD (r.levelOf i)
      else r.levelOf j := by
  rw [sublogger_eq]
  dsimp only
  rw [levelOf_register _ _ (by simp)]
  simp only [levelOf, level_getD_push]
  by_cases hj : j = r.loggers.size <;> simp [hj]

end Sublogger

/-! ### Registered names -/

/-- Every name is registered once, every logger under at most one name, and every registered
logger exists. -/
structure WellNamed (r : Registry) : Prop where
  names_nodup : (r.names.map Prod.fst).Nodup
  indices_nodup : (r.names.map Prod.snd).Nodup
  lt_size : ∀ m ∈ r.names, m.2 < r.loggers.size

namespace WellNamed

variable {r r' : Registry}

theorem of_names (hw : WellNamed r) (hn : r'.names = r.names)
    (hs : r.loggers.size ≤ r'.loggers.size) : WellNamed r' := by
  refine ⟨hn ▸ hw.names_nodup, hn ▸ hw.indices_nodup, fun m hm => ?_⟩
  have := hw.lt_size m (hn ▸ hm)
  omega

theorem of_levelsOnly (hw : WellNamed r) (h : LevelsOnly r r') : WellNamed r' :=
  hw.of_names h.names (Nat.le_of_eq h.size.symm)

/-- Registering a logger that exists and is registered under no name keeps names and loggers
apart. -/
theorem register (hw : WellNamed r) (name : String) {i : Nat} (hi : i < r.loggers.size)
    (hfresh : ∀ m ∈ r.names, m.2 ≠ i) : WellNamed (r.register name i) := by
  have hsub : ∀ {β : Type} (f : String × Nat → β),
      ((r.names.filter fun m => m.1 != name).map f).Sublist (r.names.map f) :=
    fun f => (List.filter_sublist).map f
  refine ⟨?_, ?_, ?_⟩
  · -- the name is dropped from the list before it is added again
    simp only [names_register, List.map_append, List.nodup_append]
    refine ⟨(hsub Prod.fst).nodup hw.names_nodup, by simp, ?_⟩
    simp only [List.mem_map, List.mem_filter]
    rintro _ ⟨m, ⟨-, hm⟩, rfl⟩ b hb
    simp_all
  · simp only [names_register, List.map_append, List.nodup_append]
    refine ⟨(hsub Prod.snd).nodup hw.indices_nodup, by simp, ?_⟩
    simp only [List.mem_map, List.mem_filter]
    rintro _ ⟨m, ⟨hm, -⟩, rfl⟩ b hb
    simp only [List.mem_singleton] at hb
    obtain ⟨_, rfl, rfl⟩ := hb
    exact hfresh m hm
  · simp only [names_register, size_register, List.mem_append, List.mem_filter,
      List.mem_singleton]
    rintro m (⟨hm, -⟩ | rfl)
    · exact hw.lt_size m hm
    · exact hi

/-- A logger added at the end is registered under no name yet. -/
theorem push (hw : WellNamed r) (h : r'.names = r.names)
    (hs : r'.loggers.size = r.loggers.size + 1) (name : String) :
    WellNamed (r'.register name r.loggers.size) := by
  have hw' : WellNamed r' := hw.of_names h (by omega)
  refine hw'.register name (by omega) fun m hm => ?_
  have := hw.lt_size m (h ▸ hm)
  omega

theorem make (hw : WellNamed r) (name : String) (level : Level) (aps : List Appender) :
    WellNamed (r.make name level aps).1 := by
  unfold Registry.make
  dsimp only
  split
  · exact hw.of_names rfl (by simp)
  · refine hw.push ?_ ?_ name
    · rfl
    · simp

theorem sublogger (hw : WellNamed r) (i : Nat) (sub : String) :
    WellNamed (r.sublogger i sub).1 := by
  rw [sublogger_eq]
  refine hw.push ?_ ?_ _
  · rfl
  · simp

end WellNamed

/-- The registered logger of a name is one registered under it. -/
theorem mem_names_of_lookup {r : Registry} {n : String} {i : Nat} (h : r.lookup n = some i) :
    (n, i) ∈ r.names := by
  simp only [lookup, Option.map_eq_some_iff] at h
  obtain ⟨m, hm, rfl⟩ := h
  have hk : m.1 = n := by simpa using List.find?_some hm
  exact hk ▸ List.mem_of_find?_eq_some hm

/-- Where every name is registered once, the logger registered under a name is found by it. -/
theorem WellNamed.lookup_eq {r : Registry} (hw : WellNamed r) {n : String} {i : Nat}
    (h : (n, i) ∈ r.names) : r.lookup n = some i := by
  cases hf : r.names.find? (·.1 == n) with
  | none =>
    have := List.find?_eq_none.mp hf (n, i) h
    simp at this
  | some m =>
    have hm := List.mem_of_find?_eq_some hf
    have hk : m.1 = n := by simpa using List.find?_some hf
    have hmi : m = (n, i) := List.inj_on_of_nodup_map hw.names_nodup hm h hk
    simp [lookup, hf, hmi]

/-- Where every logger is registered under at most one name, two names of a logger are one. -/
theorem WellNamed.name_eq {r : Registry} (hw : WellNamed r) {n n' : String} {i : Nat}
    (h : (n, i) ∈ r.names) (h' : (n', i) ∈ r.names) : n = n' := by
  have := List.inj_on_of_nodup_map hw.indices_nodup h h' rfl
  simp_all

/-! ### Updating the patterns -/

/-- What the update does with one name and the level it collected for it. -/
def assignStep (s : Registry) : String × Level → Registry
  | (n, l) =>
    match s.lookup n with
    | some i => s.setLevel i l
    | none => s

theorem updateConfig_eq (r : Registry) (ps : List PatternLevel) (warn : Journal) :
    r.updateConfig ps warn =
      match ({ r with patterns := ps } : Registry).patternLevels warn ps [] with
      | .error (f, warn) => ({ r with patterns := ps }, warn, some f)
      | .ok (levels, warn) => (levels.foldl assignStep { r with patterns := ps }, warn, none) :=
  rfl

theorem levelsOnly_assignStep (s : Registry) (e : String × Level) :
    LevelsOnly s (assignStep s e) := by
  obtain ⟨n, l⟩ := e
  simp only [assignStep]
  split
  · exact levelsOnly_setLevel s _ _
  · exact LevelsOnly.refl s

theorem lookup_filter_ne (acc : List (String × Level)) (n m : String) :
    (acc.filter fun e => e.1 != n).lookup m = if m = n then none else acc.lookup m := by
  induction acc with
  | nil => simp
  | cons e acc ih =>
    obtain ⟨k, b⟩ := e
    -- the filter drops the entry exactly when its key is `n`
    by_cases hk : k = n <;> grind

/-- Collecting a level for a list of names: the last assignment of a name wins. -/
theorem lookup_foldl_assign (l : Level) (hits : List String) (acc : List (String × Level))
    (m : String) :
    (hits.foldl (fun acc n => acc.filter (·.1 != n) ++ [(n, l)]) acc).lookup m =
      if m ∈ hits then some l else acc.lookup m := by
  induction hits generalizing acc with
  | nil => simp
  | cons n hits ih =>
    rw [List.foldl_cons, ih, List.lookup_append, lookup_filter_ne]
    by_cases hm : m = n <;> grind

theorem nodup_foldl_assign (l : Level) (hits : List String) (acc : List (String × Level))
    (h : (acc.map Prod.fst).Nodup) :
    ((hits.foldl (fun acc n => acc.filter (·.1 != n) ++ [(n, l)]) acc).map Prod.fst).Nodup := by
  induction hits generalizing acc with
  | nil => exact h
  | cons n hits ih =>
    apply ih
    simp only [List.map_append, List.nodup_append]
    refine ⟨((List.filter_sublist).map Prod.fst).nodup h, by simp, ?_⟩
    simp only [List.mem_map, List.mem_filter]
    rintro _ ⟨e, ⟨-, he⟩, rfl⟩ b hb
    simp_all

/-- The update collects levels exactly when every entry with a valid pattern has a level name
that reads. -/
theorem patternLevels_ok_iff (r : Registry) (warn : Journal) (ps : List PatternLevel)
    (acc : List (String × Level)) :
    (∃ res, r.patternLevels warn ps acc = .ok res) ↔
      ∀ p ∈ ps, Pattern.isValid p.pattern = true → ∃ l, Level.parse p.level = .ok l := by
  fun_induction r.patternLevels warn ps acc with
  | case1 => simp
  | case2 warn p ps acc hinvalid ih =>
    -- an invalid entry is skipped, whatever its level name
    have hv : Pattern.isValid p.pattern = false := by simpa using hinvalid
    rw [ih]
    simp [hv]
  | case3 warn p ps acc hvalid e hparse =>
    have hv : Pattern.isValid p.pattern = true := by simpa using hvalid
    simp only [reduceCtorEq, exists_false, false_iff, not_forall]
    exact ⟨p, List.mem_cons_self, hv, by simp [hparse]⟩
  | case4 warn p ps acc hvalid l hparse hits ih =>
    rw [ih]
    simp [hparse]

/-- The level an update collects for a registered name: that of the last valid entry matching
it, over what was collected before. -/
theorem lookup_patternLevels {r : Registry} {warn : Journal} {ps : List PatternLevel}
    {acc levels : List (String × Level)} {warn' : Journal}
    (h : r.patternLevels warn ps acc = .ok (levels, warn')) {m : String}
    (hm : m ∈ r.registeredNames) :
    levels.lookup m = (validEntries ps).foldl (fun a p => p.levelFor m a) (acc.lookup m) := by
  revert h
  fun_induction r.patternLevels warn ps acc with
  | case1 =>
    intro h
    cases h
    rfl
  | case2 warn p ps acc hinvalid ih =>
    intro h
    have hv : Pattern.isValid p.pattern = false := by simpa using hinvalid
    rw [validEntries_cons, if_neg (by simp [hv])]
    exact ih h
  | case3 => intro h; cases h
  | case4 warn p ps acc hvalid l hparse hits ih =>
    intro h
    have hv : Pattern.isValid p.pattern = true := by simpa using hvalid
    rw [validEntries_cons, if_pos hv, List.foldl_cons, ih h, lookup_foldl_assign]
    -- a registered name is among the hits exactly when the entry matches it
    have hhit : (m ∈ hits) = (Pattern.matchesName p.pattern m = true) := by simp [hits, hm]
    simp [hhit, PatternLevel.levelFor, hparse]

theorem nodup_patternLevels {r : Registry} {warn : Journal} {ps : List PatternLevel}
    {acc levels : List (String × Level)} {warn' : Journal}
    (h : r.patternLevels warn ps acc = .ok (levels, warn')) (hacc : (acc.map Prod.fst).Nodup) :
    (levels.map Prod.fst).Nodup := by
  revert h hacc
  fun_induction r.patternLevels warn ps acc with
  | case1 =>
    intro h hacc
    cases h
    exact hacc
  | case2 warn p ps acc _ ih => exact ih
  | case3 => intro h; cases h
  | case4 warn p ps acc _ l _ hits ih =>
    intro h hacc
    exact ih h (nodup_foldl_assign l hits acc hacc)

/-- Assigning a level to a name leaves a logger not registered under it alone. -/
theorem levelOf_assignStep_of_not_mem {s : Registry} {k : String} {j : Nat} (l : Level)
    (hj : (k, j) ∉ s.names) : (assignStep s (k, l)).levelOf j = s.levelOf j := by
  simp only [assignStep]
  split
  · rename_i i hi
    exact levelOf_setLevel_of_ne fun hji => hj (hji ▸ mem_names_of_lookup hi)
  · rfl

/-- Assigning the collected levels sets every registered logger to the level collected for its
name. -/
theorem levelOf_foldl_assignStep {s : Registry} (hw : WellNamed s)
    {levels : List (String × Level)} (hkeys : (levels.map Prod.fst).Nodup) {n : String} {j : Nat}
    (hn : (n, j) ∈ s.names) :
    (levels.foldl assignStep s).levelOf j = (levels.lookup n).getD (s.levelOf j) := by
  induction levels generalizing s with
  | nil => rfl
  | cons e levels ih =>
    obtain ⟨k, l⟩ := e
    simp only [List.map_cons, List.nodup_cons] at hkeys
    have hlo := levelsOnly_assignStep s (k, l)
    rw [List.foldl_cons, ih (hw.of_levelsOnly hlo) hkeys.2 (hlo.names ▸ hn)]
    by_cases hk : k = n
    · -- the name's only entry gives its logger the level
      subst hk
      have hnone : levels.lookup k = none := by
        simp only [List.lookup_eq_none_iff]
        intro e he
        have : k ≠ e.1 := fun hke => hkeys.1 (hke ▸ List.mem_map_of_mem he)
        simpa using this
      simp [assignStep, hw.lookup_eq hn, levelOf_setLevel (hw.lt_size _ hn), hnone]
    · -- another name belongs to another logger
      rw [levelOf_assignStep_of_not_mem l fun hkj => hk (hw.name_eq hkj hn)]
      grind

/-- Assigning the collected levels leaves a logger registered under no name alone. -/
theorem levelOf_foldl_assignStep_of_not_mem {s : Registry} (levels : List (String × Level))
    {j : Nat} (hj : ∀ n, (n, j) ∉ s.names) :
    (levels.foldl assignStep s).levelOf j = s.levelOf j := by
  induction levels generalizing s with
  | nil => rfl
  | cons e levels ih =>
    obtain ⟨k, l⟩ := e
    have hlo := levelsOnly_assignStep s (k, l)
    rw [List.foldl_cons, ih fun n => hlo.names ▸ hj n, levelOf_assignStep_of_not_mem l (hj k)]

section Update

variable (r : Registry) (ps : List PatternLevel) (warn : Journal)

theorem levelsOnly_updateConfig :
    LevelsOnly { r with patterns := ps } (r.updateConfig ps warn).1 := by
  rw [updateConfig_eq]
  split
  · exact LevelsOnly.refl _
  · exact levelsOnly_foldl levelsOnly_assignStep _ _

@[simp] theorem patterns_updateConfig : (r.updateConfig ps warn).1.patterns = ps :=
  (levelsOnly_updateConfig r ps warn).patterns

@[simp] theorem names_updateConfig : (r.updateConfig ps warn).1.names = r.names :=
  (levelsOnly_updateConfig r ps warn).names

@[simp] theorem size_updateConfig : (r.updateConfig ps warn).1.loggers.size = r.loggers.size :=
  (levelsOnly_updateConfig r ps warn).size

@[simp] theorem loggerName_updateConfig (j : Nat) :
    (r.updateConfig ps warn).1.loggerName j = r.loggerName j :=
  (levelsOnly_updateConfig r ps warn).loggerName j

/-- An update goes through exactly when every entry with a valid pattern has a level name that
reads. -/
theorem updateConfig_ok_iff :
    (r.updateConfig ps warn).2.2 = none ↔
      ∀ p ∈ ps, Pattern.isValid p.pattern = true → ∃ l, Level.parse p.level = .ok l := by
  rw [← patternLevels_ok_iff { r with patterns := ps } warn ps [], updateConfig_eq]
  split <;> simp_all

/-- A failed update changes no level. -/
theorem levelOf_updateConfig_of_error {f : Failure} (h : (r.updateConfig ps warn).2.2 = some f)
    (j : Nat) : (r.updateConfig ps warn).1.levelOf j = r.levelOf j := by
  rw [updateConfig_eq] at h ⊢
  split
  · rfl
  · rename_i heq
    simp [heq] at h

end Update

/-- A successful update sets every registered logger to the level of the last valid entry
matching its name, if there is one, and leaves every other logger alone. -/
theorem levelOf_updateConfig {r : Registry} (hw : WellNamed r) {ps : List PatternLevel}
    {warn : Journal} (hok : (r.updateConfig ps warn).2.2 = none) :
    (∀ n j, (n, j) ∈ r.names →
      (r.updateConfig ps warn).1.levelOf j =
        (patternLevel (validEntries ps) n).getD (r.levelOf j)) ∧
    ∀ j, (∀ n, (n, j) ∉ r.names) → (r.updateConfig ps warn).1.levelOf j = r.levelOf j := by
  rw [updateConfig_eq] at hok ⊢
  split
  · rename_i heq
    simp [heq] at hok
  · rename_i levels warn' heq
    have hw₀ : WellNamed { r with patterns := ps } := hw.of_names rfl (Nat.le_refl _)
    refine ⟨fun n j hn => ?_, fun j hj => levelOf_foldl_assignStep_of_not_mem levels hj⟩
    -- the name is registered, so the update collected for it what the valid entries give it
    have hreg : n ∈ ({ r with patterns := ps } : Registry).registeredNames := by
      simp only [registeredNames, List.mem_mergeSort]
      exact List.mem_map_of_mem hn
    rw [levelOf_foldl_assignStep hw₀ (nodup_patternLevels heq List.nodup_nil) hn,
      lookup_patternLevels heq hreg]
    rfl

/-! ### The registries the operations reach -/

/-- Writing an entry to appenders touches only the outputs. -/
theorem foldl_deliver_keeps (e : Entry) (aps : List Appender) (r : Registry) :
    (aps.foldl (fun r a => r.deliver e a) r).names = r.names ∧
      (aps.foldl (fun r a => r.deliver e a) r).loggers = r.loggers := by
  induction aps generalizing r with
  | nil => exact ⟨rfl, rfl⟩
  | cons a aps ih =>
    obtain ⟨hn, hl⟩ := ih (r.deliver e a)
    rw [List.foldl_cons, hn, hl]
    cases a <;> exact ⟨rfl, rfl⟩

theorem write_keeps (r : Registry) (i : Nat) (level : Level) (message : String)
    (kv : List Value) :
    (r.write i level message kv).names = r.names ∧
      (r.write i level message kv).loggers = r.loggers :=
  foldl_deliver_keeps _ _ r

/-- The registries the logging operations reach from the start. -/
inductive Reachable : Registry → Prop
  | start (time caller : String) : Reachable (initial time caller)
  | make {r : Registry} (name : String) (level : Level) (aps : List Appender) :
      Reachable r → Reachable (r.make name level aps).1
  | newTest {r : Registry} : Reachable r → Reachable r.newTest.1
  | sublogger {r : Registry} (i : Nat) (sub : String) :
      Reachable r → Reachable (r.sublogger i sub).1
  | setLevel {r : Registry} (i : Nat) (l : Level) : Reachable r → Reachable (r.setLevel i l)
  | updateLevel {r r' : Registry} (name : String) (l : Level) :
      Reachable r → r.updateLevel name l = .ok r' → Reachable r'
  | updateConfig {r : Registry} (ps : List PatternLevel) (warn : Journal) :
      Reachable r → Reachable (r.updateConfig ps warn).1
  | addAppender {r : Registry} (i : Nat) (a : Appender) :
      Reachable r → Reachable (r.addAppender i a)
  | log {r : Registry} (i : Nat) (level : Level) (message : String) (kv : List Value) :
      Reachable r → Reachable (r.log i level message kv)
  | traceLog {r : Registry} (i : Nat) (ctx : Context) (message : String)
      (kv : List Value) : Reachable r → Reachable (r.traceLog i ctx message kv)
  | replaceGlobal {r : Registry} (i : Nat) : Reachable r → Reachable (r.replaceGlobal i)
  | clearOutput {r : Registry} : Reachable r → Reachable r.clearOutput

namespace WellNamed

variable {r : Registry}

theorem addAppender (hw : WellNamed r) (i : Nat) (a : Appender) :
    WellNamed (r.addAppender i a) := by
  refine hw.of_names ?_ ?_ <;> unfold Registry.addAppender <;> dsimp only <;> split <;> simp

theorem updateConfig (hw : WellNamed r) (ps : List PatternLevel) (warn : Journal) :
    WellNamed (r.updateConfig ps warn).1 :=
  hw.of_names (names_updateConfig r ps warn) (Nat.le_of_eq (size_updateConfig r ps warn).symm)

theorem newTest (hw : WellNamed r) : WellNamed r.newTest.1 := by
  unfold Registry.newTest
  dsimp only
  refine WellNamed.addAppender (WellNamed.addAppender (hw.of_names ?_ ?_) _ _) _ _
  · rfl
  · simp

theorem write (hw : WellNamed r) (i : Nat) (level : Level) (message : String)
    (kv : List Value) : WellNamed (r.write i level message kv) :=
  hw.of_names (write_keeps r i level message kv).1
    (Nat.le_of_eq (congrArg Array.size (write_keeps r i level message kv).2).symm)

end WellNamed

/-- Every registry the operations reach registers every name once, every logger under at most
one name, and only loggers that exist. -/
theorem Reachable.wellNamed {r : Registry} (hr : Reachable r) : WellNamed r := by
  induction hr with
  | start time caller =>
    unfold initial
    exact WellNamed.make ⟨by simp, by simp, by simp⟩ _ _ _
  | make name level aps _ ih => exact ih.make name level aps
  | newTest _ ih => exact ih.newTest
  | sublogger i sub _ ih => exact ih.sublogger i sub
  | setLevel i l _ ih => exact ih.of_levelsOnly (levelsOnly_setLevel _ i l)
  | updateLevel name l _ h ih =>
    unfold Registry.updateLevel at h
    split at h
    · cases h
      exact ih.of_levelsOnly (levelsOnly_setLevel _ _ l)
    · cases h
  | updateConfig ps warn _ ih => exact ih.updateConfig ps warn
  | addAppender i a _ ih => exact ih.addAppender i a
  | log i level message kv _ ih =>
    unfold Registry.log
    split
    · exact ih.write i level message kv
    · exact ih
  | traceLog i ctx message kv _ ih =>
    unfold Registry.traceLog Registry.log
    dsimp only
    split
    · exact ih.write _ _ _ _
    · split
      · exact ih.write _ _ _ _
      · exact ih
  | replaceGlobal i _ ih => exact ih.of_names rfl (Nat.le_refl _)
  | clearOutput _ ih => exact ih.of_names rfl (Nat.le_refl _)

/-! ### Updates and registrations -/

/-- What an update of the registry `r` to the entries `ps` does to levels: every registered
logger gets the level of the last valid entry matching its name, if any, every other logger
keeps its own, and a logger made or split off right after gets the level of the last entry
matching its name, valid or not, if any, else its own or its parent's. -/
structure UpdateLevels (r : Registry) (ps : List PatternLevel) (warn : Journal) : Prop where
  registered : ∀ n j, (n, j) ∈ r.names →
    (r.updateConfig ps warn).1.levelOf j = (patternLevel (validEntries ps) n).getD (r.levelOf j)
  unregistered : ∀ j, (∀ n, (n, j) ∉ r.names) →
    (r.updateConfig ps warn).1.levelOf j = r.levelOf j
  made : ∀ name level aps, name ≠ "" →
    ((r.updateConfig ps warn).1.make name level aps).1.levelOf r.loggers.size =
      (patternLevel ps name).getD level
  sublogger : ∀ i sub,
    ((r.updateConfig ps warn).1.sublogger i sub).1.levelOf r.loggers.size =
      (patternLevel ps (r.subloggerName i sub)).getD ((r.updateConfig ps warn).1.levelOf i)

/-- A logger made under a name before an update ends with the level of the last valid entry
matching the name, over the level it was made with; one made after, with that of the last
entry matching the name, valid or not. -/
theorem levelOf_make_around_updateConfig {r : Registry} (hr : Reachable r)
    {ps : List PatternLevel} {warn : Journal} (hok : (r.updateConfig ps warn).2.2 = none)
    {name : String} (hname : name ≠ "") (level : Level) (aps : List Appender) :
    ((r.make name level aps).1.updateConfig ps warn).1.levelOf r.loggers.size =
        (patternLevel (validEntries ps) name).getD ((patternLevel r.patterns name).getD level) ∧
      ((r.updateConfig ps warn).1.make name level aps).1.levelOf r.loggers.size =
        (patternLevel ps name).getD level := by
  have hr' : Reachable (r.make name level aps).1 := .make name level aps hr
  -- the update goes through after the registration too: it does not read the names
  have hok' : ((r.make name level aps).1.updateConfig ps warn).2.2 = none :=
    (updateConfig_ok_iff _ _ _).mpr ((updateConfig_ok_iff _ _ _).mp hok)
  have hmem : (name, r.loggers.size) ∈ (r.make name level aps).1.names := by
    simp [names_make, hname]
  constructor
  · rw [(levelOf_updateConfig hr'.wellNamed hok').1 name _ hmem, levelOf_make, if_pos rfl,
      if_neg hname]
  · rw [levelOf_make, size_updateConfig, if_pos rfl, if_neg hname, patterns_updateConfig]

/-- So the order of registration and update does not matter for a name whose matching entries
all have valid patterns, one of them giving it a level. -/
theorem levelOf_make_before_eq_after {r : Registry} (hr : Reachable r)
    {ps : List PatternLevel} {warn : Journal} (hok : (r.updateConfig ps warn).2.2 = none)
    {name : String} (hname : name ≠ "") (level : Level) (aps : List Appender)
    (hvalid : ∀ p ∈ ps, Pattern.matchesName p.pattern name = true → Pattern.isValid p.pattern = true)
    (hsome : (patternLevel ps name).isSome) :
    ((r.make name level aps).1.updateConfig ps warn).1.levelOf r.loggers.size =
      ((r.updateConfig ps warn).1.make name level aps).1.levelOf r.loggers.size := by
  obtain ⟨hbefore, hafter⟩ := levelOf_make_around_updateConfig hr hok hname level aps
  obtain ⟨l, hl⟩ := Option.isSome_iff_exists.mp hsome
  rw [hbefore, hafter, patternLevel_validEntries hvalid, hl]
  rfl

/-- Collecting levels fails at the first valid entry whose level name does not read, with the
complaint of the reading. -/
theorem patternLevels_error {r : Registry} {warn : Journal} {ps : List PatternLevel}
    {acc : List (String × Level)} {f : Failure} {warn' : Journal}
    (h : r.patternLevels warn ps acc = .error (f, warn')) :
    ∃ pre p post e, ps = pre ++ p :: post ∧
      (∀ q ∈ pre, Pattern.isValid q.pattern = true → ∃ l, Level.parse q.level = .ok l) ∧
      Pattern.isValid p.pattern = true ∧ Level.parse p.level = .error e ∧ f = .plain e := by
  revert h
  fun_induction r.patternLevels warn ps acc with
  | case1 => intro h; cases h
  | case2 warn p ps acc hinvalid ih =>
    -- an entry refused by validation is skipped on the way to the failing one
    intro h
    obtain ⟨pre, q, post, e, rfl, hpre, hq⟩ := ih h
    have hv : Pattern.isValid p.pattern = false := by simpa using hinvalid
    refine ⟨p :: pre, q, post, e, rfl, fun q' hq' hvalid => ?_, hq⟩
    rcases List.mem_cons.1 hq' with rfl | hq'
    · rw [hv] at hvalid
      cases hvalid
    · exact hpre q' hq' hvalid
  | case3 warn p ps acc hvalid e hparse =>
    intro h
    cases h
    exact ⟨[], p, ps, e, rfl, by simp, by simpa using hvalid, hparse, rfl⟩
  | case4 warn p ps acc hvalid l hparse hits ih =>
    intro h
    obtain ⟨pre, q, post, e, rfl, hpre, hq⟩ := ih h
    refine ⟨p :: pre, q, post, e, rfl, fun q' hq' hvalid' => ?_, hq⟩
    rcases List.mem_cons.1 hq' with rfl | hq'
    · exact ⟨l, hparse⟩
    · exact hpre q' hq' hvalid'

section FailedUpdate

variable {r : Registry} {ps : List PatternLevel} {warn : Journal} {f : Failure}

/-- A failed update leaves the registry as it was, but for the entries it stores. -/
theorem updateConfig_of_error (h : (r.updateConfig ps warn).2.2 = some f) :
    (r.updateConfig ps warn).1 = { r with patterns := ps } := by
  rw [updateConfig_eq] at h ⊢
  split
  · rfl
  · rename_i heq
    simp [heq] at h

/-- A failed update fails at the first valid entry whose level name does not read. -/
theorem updateConfig_error_at (h : (r.updateConfig ps warn).2.2 = some f) :
    ∃ pre p post e, ps = pre ++ p :: post ∧
      (∀ q ∈ pre, Pattern.isValid q.pattern = true → ∃ l, Level.parse q.level = .ok l) ∧
      Pattern.isValid p.pattern = true ∧ Level.parse p.level = .error e ∧ f = .plain e := by
  rw [updateConfig_eq] at h
  split at h
  · rename_i heq
    cases h
    exact patternLevels_error heq
  · cases h

/-- What an update of the registry `r` to the entries `ps` does when it fails with `f`: it
fails at the first valid entry whose level name does not read, with the complaint of the
reading; it leaves the registry as it was but for the entries, which it stores; and loggers
made or split off afterwards are set by those entries, as `UpdateLevels` says of a successful
update. -/
structure FailedUpdate (r : Registry) (ps : List PatternLevel) (warn : Journal) (f : Failure) :
    Prop where
  failsAt : ∃ pre p post e, ps = pre ++ p :: post ∧
    (∀ q ∈ pre, Pattern.isValid q.pattern = true → ∃ l, Level.parse q.level = .ok l) ∧
    Pattern.isValid p.pattern = true ∧ Level.parse p.level = .error e ∧ f = .plain e
  keeps : (r.updateConfig ps warn).1 = { r with patterns := ps }
  made : ∀ name level aps, name ≠ "" →
    ((r.updateConfig ps warn).1.make name level aps).1.levelOf r.loggers.size =
      (patternLevel ps name).getD level
  sublogger : ∀ i sub,
    ((r.updateConfig ps warn).1.sublogger i sub).1.levelOf r.loggers.size =
      (patternLevel ps (r.subloggerName i sub)).getD (r.levelOf i)

end FailedUpdate

/-- The update of the start registry to `a=error` and `b=bogus` fails at `bogus`. -/
theorem updateConfig_initial_bogus :
    ((initial "TIME" "CALLER").updateConfig [⟨"a", "error"⟩, ⟨"b", "bogus"⟩] {}).2.2 =
      some (.plain "unknown log level: \"bogus\"") := by
  have hbogus : Level.parse "bogus" = .error "unknown log level: \"bogus\"" := by decide +kernel
  have hparse : Level.parse "error" = .ok .error := Level.parse_entryName .error
  have ha : Pattern.isValid "a" = true := by decide
  have hb : Pattern.isValid "b" = true := by decide
  rw [updateConfig_eq]
  simp [patternLevels, ha, hb, hparse, hbogus]

end Registry

end Logging

end ArmReach
