import LineShell.Files.Walk

/-!
# Where walks end

The walks that end somewhere, by rules: one for each kind of step. `walk_eq_ok`: a walk ends where a
route leads, which is a node or a gap, that is a name which a directory has no entry for. A place
for a new file is where the path leads anyway: walking for one only refuses more paths.
-/

namespace LineShell.Files.FileTree

-- ---------------------------------------------------------------------------
-- Routes
-- ---------------------------------------------------------------------------

/-- A directory without an entry for a name. -/
def Lacks (t : FileTree) (id : NodeId) (name : Name) : Prop :=
  ∃ dir, t.directory? id = some dir ∧ dir.find? name = none

/-- A name that is looked up among the entries of a directory. No file can be created in place of a
directory. -/
structure Sought (aim : Aim) (name : Name) (rest : List Name) (toDirectory : Bool) : Prop where
  here : name ≠ here
  above : name ≠ above
  short : name.length ≤ longestName
  creatable : aim = .creation → rest = [] → toDirectory = false

theorem Sought.toward {aim aim' : Aim} {name : Name} {rest rest' : List Name}
    {toDirectory toDirectory' : Bool} (h : Sought aim name rest toDirectory)
    (hc : aim' = .creation → rest' = [] → toDirectory' = false) :
    Sought aim' name rest' toDirectory' := ⟨h.here, h.above, h.short, hc⟩

theorem sought_target {name : Name} {rest : List Name} {toDirectory : Bool}
    (hhere : name ≠ Files.here) (habove : name ≠ Files.above)
    (hshort : ¬ longestName < name.length) : Sought .target name rest toDirectory :=
  ⟨hhere, habove, Nat.not_lt.mp hshort, fun h => nomatch h⟩

def Enters (t : FileTree) (cur : NodeId) (name : Name) (id : NodeId) : Prop :=
  ∃ dir, t.directory? cur = some dir ∧ dir.find? name = some id

theorem Enters.isSome {t : FileTree} {cur id : NodeId} {name : Name} (h : t.Enters cur name id) :
    (t.directory? cur).isSome := by
  obtain ⟨dir, hdir, -⟩ := h
  simp [hdir]

abbrev Opens (t : FileTree) (u : User) (id : NodeId) : Prop := t.grants u .execute id = true

/-- The ways from a directory along names, with some links left to expand. -/
inductive Route (t : FileTree) (u : User) (aim : Aim) :
    Nat → List Name → NodeId → Bool → Place → Prop
  | done {links : Nat} {cur : NodeId} {toDirectory : Bool} :
      (toDirectory = true → (t.directory? cur).isSome) →
      Route t u aim links [] cur toDirectory (.node cur)
  | here {links : Nat} {rest : List Name} {cur : NodeId} {toDirectory : Bool} {place : Place} :
      (t.directory? cur).isSome → t.Opens u cur → Route t u aim links rest cur toDirectory place →
      Route t u aim links (here :: rest) cur toDirectory place
  | above {links : Nat} {rest : List Name} {cur : NodeId} {toDirectory : Bool} {place : Place}
      {dir : Directory} :
      t.directory? cur = some dir → t.Opens u cur →
      Route t u aim links rest dir.parent toDirectory place →
      Route t u aim links (above :: rest) cur toDirectory place
  | gap {links : Nat} {name : Name} {cur : NodeId} {toDirectory : Bool} :
      Sought aim name [] toDirectory → t.Opens u cur → t.Lacks cur name →
      Route t u aim links [name] cur toDirectory (.vacant cur name)
  | entry {links : Nat} {name : Name} {rest : List Name} {cur id : NodeId} {toDirectory : Bool}
      {place : Place} :
      Sought aim name rest toDirectory → t.Opens u cur → t.Enters cur name id → t.link? id = none →
      Route t u aim links rest id toDirectory place →
      Route t u aim links (name :: rest) cur toDirectory place
  | itself {links : Nat} {name : Name} {cur id : NodeId} :
      aim = .entry → Sought aim name [] false → t.Opens u cur → t.Enters cur name id →
      (t.link? id).isSome →
      Route t u aim links [name] cur false (.node id)
  | through {links : Nat} {name : Name} {rest : List Name} {cur id : NodeId} {toDirectory : Bool}
      {place : Place} {target : Bytes} :
      Sought aim name rest toDirectory → t.Opens u cur → t.Enters cur name id →
      t.link? id = some target →
      (aim = .entry → rest = [] → toDirectory = true) →
      Route t u aim links ((Path.ofBytes target).names ++ rest)
        (if (Path.ofBytes target).absolute then root else cur)
        (toDirectory || rest.isEmpty && (Path.ofBytes target).toDirectory) place →
      Route t u aim (links + 1) (name :: rest) cur toDirectory place

section
variable {t : FileTree} {u : User} {aim : Aim} {links : Nat} {names : List Name} {cur : NodeId}
  {toDirectory : Bool} {place : Place}

-- ---------------------------------------------------------------------------
-- Walks
-- ---------------------------------------------------------------------------

section
variable {dir : Directory} (hdir : t.directory? cur = some dir) (hopens : t.Opens u cur)
include hdir hopens

theorem walk_here {rest : List Name} : t.walk u aim links (here :: rest) cur toDirectory =
    t.walk u aim links rest cur toDirectory := by
  rw [walk, hdir]
  simp [hopens]

theorem walk_above {rest : List Name} (hne : above ≠ here) :
    t.walk u aim links (above :: rest) cur toDirectory =
      t.walk u aim links rest dir.parent toDirectory := by
  rw [walk, hdir]
  simp [hopens, hne]

theorem walk_sought {name : Name} {rest : List Name} (hsought : Sought aim name rest toDirectory) :
    t.walk u aim links (name :: rest) cur toDirectory =
      match dir.find? name with
      | none => if rest.isEmpty then .ok (.vacant cur name) else .error .noEntry
      | some id =>
        match t.link? id with
        | none => t.walk u aim links rest id toDirectory
        | some target =>
          if aim = .entry && rest.isEmpty && !toDirectory then .ok (.node id)
          else match links with
            | 0 => .error .tooManyLinks
            | links + 1 =>
              let path := Path.ofBytes target
              t.walk u aim links (path.names ++ rest) (if path.absolute then root else cur)
                (toDirectory || rest.isEmpty && path.toDirectory) := by
  have hcreatable : ¬ (aim = .creation && rest.isEmpty && toDirectory) = true := by
    simpa using hsought.creatable
  have hlong := Nat.not_lt.mpr hsought.short
  rw [walk, hdir]
  cases hfind : dir.find? name with
  | none => simp [hopens, hsought.here, hsought.above, hlong, hcreatable, hfind]
  | some id =>
    cases hlink : t.link? id with
    | none => simp [hopens, hsought.here, hsought.above, hlong, hcreatable, hfind, hlink]
    | some target =>
      cases links <;> simp [hopens, hsought.here, hsought.above, hlong, hcreatable, hfind, hlink]

end

theorem route_of_walk (h : t.walk u aim links names cur toDirectory = .ok place) :
    t.Route u aim links names cur toDirectory place := by
  fun_induction t.walk u aim links names cur toDirectory
  case case1 | case3 | case4 | case7 | case8 | case10 | case13 => cases h
  case case2 hcur =>
    cases h
    refine .done fun hto => ?_
    simpa [hto, Option.isSome_iff_ne_none] using hcur
  case case5 hdir ho ih => exact .here (by simp [hdir]) (by simpa using ho) (ih h)
  case case6 hdir ho _ ih => exact .above hdir (by simpa using ho) (ih h)
  case case9 hdir ho hh ha hc hl hfind hlast =>
    cases h
    obtain rfl := List.isEmpty_iff.mp hlast
    exact .gap ⟨hh, ha, Nat.not_lt.mp hl, by simpa using hc⟩ (by simpa using ho) ⟨_, hdir, hfind⟩
  case case11 hdir ho hh ha hc hl id hfind hlink ih =>
    exact .entry ⟨hh, ha, Nat.not_lt.mp hl, by simpa using hc⟩ (by simpa using ho)
      ⟨_, hdir, hfind⟩ hlink (ih h)
  case case12 hdir ho hh ha hc hl id hfind target hlink hentry =>
    cases h
    simp only [Bool.and_eq_true, decide_eq_true_eq, List.isEmpty_iff, Bool.not_eq_true'] at hentry
    obtain ⟨⟨rfl, rfl⟩, rfl⟩ := hentry
    exact .itself rfl ⟨hh, ha, Nat.not_lt.mp hl, by simp⟩ (by simpa using ho) ⟨_, hdir, hfind⟩
      (by simp [hlink])
  case case14 hdir ho hh ha hc hl id hfind target hlink hentry links path ih =>
    exact .through ⟨hh, ha, Nat.not_lt.mp hl, by simpa using hc⟩ (by simpa using ho)
      ⟨_, hdir, hfind⟩ hlink (by simpa using hentry) (ih h)

theorem Route.walk (h : t.Route u aim links names cur toDirectory place) :
    t.walk u aim links names cur toDirectory = .ok place := by
  induction h with
  | done hcur =>
    rw [FileTree.walk, if_neg]
    simpa [Option.isSome_iff_ne_none] using hcur
  | here hcur ho _ ih =>
    obtain ⟨dir, hdir⟩ := Option.isSome_iff_exists.mp hcur
    rw [walk_here hdir ho, ih]
  | above hdir ho _ ih => rw [walk_above hdir ho (by decide), ih]
  | gap hsought ho hlacks =>
    obtain ⟨dir, hdir, hfind⟩ := hlacks
    rw [walk_sought hdir ho hsought, hfind]
    rfl
  | entry hsought ho henters hlink _ ih =>
    obtain ⟨dir, hdir, hfind⟩ := henters
    rw [walk_sought hdir ho hsought, hfind]
    simpa only [hlink] using ih
  | itself haim hsought ho henters hlink =>
    obtain ⟨dir, hdir, hfind⟩ := henters
    obtain ⟨target, hlink⟩ := Option.isSome_iff_exists.mp hlink
    rw [walk_sought hdir ho hsought, hfind]
    simp [hlink, haim]
  | through hsought ho henters hlink haim _ ih =>
    obtain ⟨dir, hdir, hfind⟩ := henters
    rw [walk_sought hdir ho hsought, hfind]
    simp only [hlink]
    rw [if_neg (by simpa using haim)]
    exact ih

theorem walk_eq_ok : t.walk u aim links names cur toDirectory = .ok place ↔
    t.Route u aim links names cur toDirectory place := ⟨route_of_walk, Route.walk⟩

theorem Route.opens {name : Name} (h : t.Route u aim links (name :: names) cur toDirectory place) :
    t.Opens u cur := by cases h <;> assumption

theorem place_eq_ok {cwd : NodeId} {path : Bytes} : t.place u cwd aim path = .ok place ↔
    path ≠ [] ∧ path.length ≤ longestPath ∧
      t.Route u aim mostLinks (Path.ofBytes path).names
        (if (Path.ofBytes path).absolute then root else cwd) (Path.ofBytes path).toDirectory
        place := by
  unfold FileTree.place
  split
  · next h => simp [h]
  · next hne =>
    split
    · next hlong => simp [Nat.not_le.mpr hlong]
    · next hshort =>
      simp only [walk_eq_ok, ne_eq, hne, not_false_eq_true, Nat.not_lt.mp hshort, true_and]

theorem place_of_routes {t' : FileTree} {aim' : Aim} {place' : Place} {cwd : NodeId} {path : Bytes}
    (h : t.place u cwd aim path = .ok place)
    (hroutes : ∀ {names cur toDirectory}, t.Route u aim mostLinks names cur toDirectory place →
      t'.Route u aim' mostLinks names cur toDirectory place') :
    t'.place u cwd aim' path = .ok place' := by
  obtain ⟨hne, hshort, hroute⟩ := place_eq_ok.mp h
  exact place_eq_ok.mpr ⟨hne, hshort, hroutes hroute⟩

theorem lookup_eq_ok {cwd id : NodeId} {path : Bytes} :
    t.lookup u cwd path = .ok id ↔ t.place u cwd .target path = .ok (.node id) := by
  unfold lookup
  rcases t.place u cwd .target path with e | place
  · simp
  · cases place with
    | node other => simp
    | vacant parent name => simp

-- ---------------------------------------------------------------------------
-- Ends
-- ---------------------------------------------------------------------------

theorem Route.lacks {parent : NodeId} {name : Name}
    (h : t.Route u aim links names cur toDirectory (.vacant parent name)) :
    t.Lacks parent name := by
  generalize hplace : Place.vacant parent name = place at h
  induction h with
  | done _ | itself _ _ _ _ _ => cases hplace
  | here _ _ _ ih | above _ _ _ ih | entry _ _ _ _ _ ih | through _ _ _ _ _ _ ih => exact ih hplace
  | gap _ _ hlacks =>
    cases hplace
    exact hlacks

theorem Route.isSome {id : NodeId} (h : t.Route u aim links names cur toDirectory (.node id))
    (hto : toDirectory = true) : (t.directory? id).isSome := by
  generalize hplace : Place.node id = place at h
  induction h with
  | done hcur =>
    cases hplace
    exact hcur hto
  | here _ _ _ ih | above _ _ _ ih | entry _ _ _ _ _ ih => exact ih hto hplace
  | gap _ _ _ => cases hplace
  | itself _ _ _ _ _ => cases hto
  | through _ _ _ _ _ _ ih => exact ih (by simp [hto]) hplace

theorem Route.target_of_creation (h : t.Route u .creation links names cur toDirectory place) :
    t.Route u .target links names cur toDirectory place := by
  induction h with
  | done hcur => exact .done hcur
  | here hcur ho _ ih => exact .here hcur ho ih
  | above hdir ho _ ih => exact .above hdir ho ih
  | gap hsought ho hlacks => exact .gap (hsought.toward nofun) ho hlacks
  | entry hsought ho henters hlink _ ih => exact .entry (hsought.toward nofun) ho henters hlink ih
  | itself haim _ _ _ _ => cases haim
  | through hsought ho henters hlink _ _ ih =>
    exact .through (hsought.toward nofun) ho henters hlink nofun ih

end

end LineShell.Files.FileTree
