import LineShell.Proofs.Files.Entries
import LineShell.Proofs.Text.Shown

/-!
# Paths that lead nowhere

A path leads to a node or goes astray, and there is a rule for each way in which it can do so.
`stat_reaches` and `stat_astray`: looking a path up finds the node or the reason.
-/

namespace LineShell

namespace Files.FileTree

-- ---------------------------------------------------------------------------
-- Walks
-- ---------------------------------------------------------------------------

/-- The ways from a directory along names that end at no node, and why. -/
inductive Strays (t : FileTree) (u : User) : Nat → List Name → NodeId → Bool → Errno → Prop
  /-- The end is no directory and has to be one. -/
  | noDirectory {links : Nat} {cur : NodeId} :
      t.directory? cur = none → Strays t u links [] cur true .notDirectory
  | blocked {links : Nat} {name : Name} {rest : List Name} {cur : NodeId} {toDirectory : Bool} :
      t.directory? cur = none → Strays t u links (name :: rest) cur toDirectory .notDirectory
  /-- The user may not follow names there. -/
  | denied {links : Nat} {name : Name} {rest : List Name} {cur : NodeId} {toDirectory : Bool} :
      (t.directory? cur).isSome → ¬ t.Opens u cur →
      Strays t u links (name :: rest) cur toDirectory .denied
  | tooLong {links : Nat} {name : Name} {rest : List Name} {cur : NodeId} {toDirectory : Bool} :
      (t.directory? cur).isSome → t.Opens u cur → longestName < name.length →
      Strays t u links (name :: rest) cur toDirectory .nameTooLong
  | missing {links : Nat} {name : Name} {rest : List Name} {cur : NodeId} {toDirectory : Bool} :
      Sought .target name rest toDirectory → t.Opens u cur → t.Lacks cur name →
      Strays t u links (name :: rest) cur toDirectory .noEntry
  | tooManyLinks {name : Name} {rest : List Name} {cur id : NodeId} {toDirectory : Bool} :
      Sought .target name rest toDirectory → t.Opens u cur → t.Enters cur name id →
      (t.link? id).isSome →
      Strays t u 0 (name :: rest) cur toDirectory .tooManyLinks
  | here {links : Nat} {rest : List Name} {cur : NodeId} {toDirectory : Bool} {e : Errno} :
      (t.directory? cur).isSome → t.Opens u cur → Strays t u links rest cur toDirectory e →
      Strays t u links (here :: rest) cur toDirectory e
  | above {links : Nat} {rest : List Name} {cur : NodeId} {toDirectory : Bool} {e : Errno}
      {dir : Directory} :
      t.directory? cur = some dir → t.Opens u cur → Strays t u links rest dir.parent toDirectory e →
      Strays t u links (above :: rest) cur toDirectory e
  | entry {links : Nat} {name : Name} {rest : List Name} {cur id : NodeId} {toDirectory : Bool}
      {e : Errno} :
      Sought .target name rest toDirectory → t.Opens u cur → t.Enters cur name id →
      t.link? id = none →
      Strays t u links rest id toDirectory e → Strays t u links (name :: rest) cur toDirectory e
  | through {links : Nat} {name : Name} {rest : List Name} {cur id : NodeId} {toDirectory : Bool}
      {e : Errno} {target : Bytes} :
      Sought .target name rest toDirectory → t.Opens u cur → t.Enters cur name id →
      t.link? id = some target →
      Strays t u links ((Path.ofBytes target).names ++ rest)
        (if (Path.ofBytes target).absolute then root else cur)
        (toDirectory || rest.isEmpty && (Path.ofBytes target).toDirectory) e →
      Strays t u (links + 1) (name :: rest) cur toDirectory e

def found : Except Errno Place → Except Errno NodeId
  | .error e => .error e
  | .ok (.vacant ..) => .error .noEntry
  | .ok (.node id) => .ok id

variable {t : FileTree} {u : User} {links : Nat} {names : List Name} {cur : NodeId}
  {toDirectory : Bool} {e : Errno}

theorem lookup_eq (t : FileTree) (u : User) (cwd : NodeId) (path : Bytes) :
    t.lookup u cwd path = found (t.place u cwd .target path) := by
  unfold lookup found
  rcases t.place u cwd .target path with e | ⟨id | ⟨dir, name⟩⟩ <;> rfl

theorem strays_of_walk (h : found (t.walk u .target links names cur toDirectory) = .error e) :
    t.Strays u links names cur toDirectory e := by
  generalize haim : Aim.target = aim at h
  fun_induction t.walk u aim links names cur toDirectory
  case case2 => cases h
  case case7 hc | case12 hc => simp [← haim] at hc
  case case1 hcur =>
    cases h
    obtain ⟨rfl, hnone⟩ : _ = true ∧ t.directory? _ = none := by simpa using hcur
    exact .noDirectory hnone
  case case3 hcur =>
    cases h
    exact .blocked hcur
  case case4 hdir ho =>
    cases h
    exact .denied (by simp [hdir]) (by simpa using ho)
  case case5 hdir ho ih => exact .here (by simp [hdir]) (by simpa using ho) (ih h)
  case case6 hdir ho _ ih => exact .above hdir (by simpa using ho) (ih h)
  case case8 hdir ho _ _ _ hlong =>
    cases h
    exact .tooLong (by simp [hdir]) (by simpa using ho) hlong
  case case9 hdir ho hh ha _ hl hfind _ | case10 hdir ho hh ha _ hl hfind _ =>
    cases h
    exact .missing (sought_target hh ha hl) (by simpa using ho) ⟨_, hdir, hfind⟩
  case case11 hdir ho hh ha _ hl id hfind hlink ih =>
    exact .entry (sought_target hh ha hl) (by simpa using ho) ⟨_, hdir, hfind⟩ hlink (ih h)
  case case13 hdir ho hh ha _ hl id hfind target hlink _ =>
    cases h
    exact .tooManyLinks (sought_target hh ha hl) (by simpa using ho) ⟨_, hdir, hfind⟩
      (by simp [hlink])
  case case14 hdir ho hh ha _ hl id hfind target hlink _ links path ih =>
    exact .through (sought_target hh ha hl) (by simpa using ho) ⟨_, hdir, hfind⟩ hlink (ih h)

theorem Strays.walk (h : t.Strays u links names cur toDirectory e) :
    found (t.walk u .target links names cur toDirectory) = .error e := by
  induction h with
  | noDirectory hcur => simp [FileTree.walk, hcur, found]
  | blocked hcur => simp [FileTree.walk, hcur, found]
  | denied hcur hopens =>
    obtain ⟨dir, hdir⟩ := Option.isSome_iff_exists.mp hcur
    rw [FileTree.walk, hdir]
    simp [Bool.eq_false_iff.mpr hopens, found]
  | @tooLong _ name _ _ _ hcur hopens hlong =>
    obtain ⟨dir, hdir⟩ := Option.isSome_iff_exists.mp hcur
    have hhere : name ≠ Files.here := by
      rintro rfl
      exact absurd hlong (by decide)
    have habove : name ≠ Files.above := by
      rintro rfl
      exact absurd hlong (by decide)
    rw [FileTree.walk, hdir]
    simp [hopens, hhere, habove, hlong, found]
  | @missing _ name rest cur _ hsought hopens hlacks =>
    obtain ⟨dir, hdir, hfind⟩ := hlacks
    rw [walk_sought hdir hopens hsought, hfind]
    cases rest <;> rfl
  | tooManyLinks hsought hopens henters hlink =>
    obtain ⟨dir, hdir, hfind⟩ := henters
    obtain ⟨target, hlink⟩ := Option.isSome_iff_exists.mp hlink
    rw [walk_sought hdir hopens hsought, hfind]
    simp [hlink, found]
  | here hcur hopens _ ih =>
    obtain ⟨dir, hdir⟩ := Option.isSome_iff_exists.mp hcur
    rw [walk_here hdir hopens, ih]
  | above hdir hopens _ ih => rw [walk_above hdir hopens (by decide), ih]
  | entry hsought hopens henters hlink _ ih =>
    obtain ⟨dir, hdir, hfind⟩ := henters
    rw [walk_sought hdir hopens hsought, hfind]
    simpa only [hlink] using ih
  | through hsought hopens henters hlink _ ih =>
    obtain ⟨dir, hdir, hfind⟩ := henters
    rw [walk_sought hdir hopens hsought, hfind]
    simpa [hlink] using ih

/-- A walk that finds nothing has gone astray. -/
theorem found_walk_eq_error : found (t.walk u .target links names cur toDirectory) = .error e ↔
    t.Strays u links names cur toDirectory e := ⟨strays_of_walk, Strays.walk⟩

end Files.FileTree

namespace World

open Files (FileTree Node NodeId Path)

-- ---------------------------------------------------------------------------
-- Paths
-- ---------------------------------------------------------------------------

/-- Where a path starts. -/
def start (w : World) (path : String) : NodeId :=
  if (Path.ofBytes (bytesOf path)).absolute then FileTree.root else w.cwd

structure Followable (path : String) : Prop where
  noNul : ¬ HoldsNul path
  nonempty : path ≠ ""
  short : (bytesOf path).length ≤ Files.longestPath

/-- The path leads to a node, through every link. -/
structure Reaches (w : World) (path : String) (node : Node) : Prop where
  followable : Followable path
  leads : ∃ id, w.files.Route w.user .target Files.mostLinks (Path.ofBytes (bytesOf path)).names
    (w.start path) (Path.ofBytes (bytesOf path)).toDirectory (.node id) ∧
      w.files.node? id = some node

/-- Why a path leads to no node. -/
inductive Astray (w : World) (path : String) : Failure → Prop
  | nul : HoldsNul path → Astray w path .nulInName
  | empty : path = "" → Astray w path (.system .noEntry)
  | tooLong : ¬ HoldsNul path → Files.longestPath < (bytesOf path).length →
      Astray w path (.system .nameTooLong)
  | strays {e : Errno} : Followable path →
      w.files.Strays w.user Files.mostLinks (Path.ofBytes (bytesOf path)).names (w.start path)
        (Path.ofBytes (bytesOf path)).toDirectory e → Astray w path (.system e)
  /-- The end of the path is a number without a node. -/
  | unnumbered {id : NodeId} : Followable path →
      w.files.Route w.user .target Files.mostLinks (Path.ofBytes (bytesOf path)).names
        (w.start path)
        (Path.ofBytes (bytesOf path)).toDirectory (.node id) →
      w.files.node? id = none → Astray w path (.system .noEntry)

variable {w : World} {path : String} {node : Node} {f : Failure}

theorem bytesOf_eq_nil : bytesOf path = [] ↔ path = "" := by
  rw [← bytesOf_inj]
  rfl

theorem locate_followable (h : Followable path) : w.locate path = (FileTree.found
    (w.files.walk w.user .target Files.mostLinks (Path.ofBytes (bytesOf path)).names (w.start path)
      (Path.ofBytes (bytesOf path)).toDirectory)).mapError .system := by
  have hbytes := pathBytes_eq_ok.mpr ⟨h.noNul, rfl⟩
  simp only [locate, hbytes, FileTree.lookup_eq, FileTree.place,
    if_neg (mt bytesOf_eq_nil.mp h.nonempty), if_neg (Nat.not_lt.mpr h.short), start]

theorem locate_reaches {id : NodeId} (h : Followable path) : w.locate path = .ok id ↔
    w.files.Route w.user .target Files.mostLinks (Path.ofBytes (bytesOf path)).names (w.start path)
      (Path.ofBytes (bytesOf path)).toDirectory (.node id) := by
  rw [locate_followable h, mapError_eq_ok, ← FileTree.walk_eq_ok]
  rcases w.files.walk _ _ _ _ _ _ with e | ⟨other | ⟨dir, name⟩⟩ <;> simp [FileTree.found]

theorem followable_of_locate {id : NodeId} (h : w.locate path = .ok id) : Followable path := by
  obtain ⟨bytes, hbytes, hlookup⟩ := locate_eq_ok.mp h
  obtain ⟨hnul, rfl⟩ := pathBytes_eq_ok.mp hbytes
  obtain ⟨hne, hshort, -⟩ := FileTree.place_eq_ok.mp (FileTree.lookup_eq_ok.mp hlookup)
  exact ⟨hnul, mt bytesOf_eq_nil.mpr hne, hshort⟩

theorem stat_reaches : w.stat path = .ok node ↔ w.Reaches path node := by
  rw [stat_eq_ok]
  constructor
  · rintro ⟨id, hid, hnode⟩
    have hfollowable := followable_of_locate hid
    exact ⟨hfollowable, id, (locate_reaches hfollowable).mp hid, hnode⟩
  · rintro ⟨hfollowable, id, hroute, hnode⟩
    exact ⟨id, (locate_reaches hfollowable).mpr hroute, hnode⟩

theorem Astray.stat (h : w.Astray path f) : w.stat path = .error f := by
  cases h with
  | nul hnul => simp [World.stat, locate, pathBytes, hnul]
  | empty hempty =>
    subst hempty
    rfl
  | tooLong hnul hlong =>
    have hne : bytesOf path ≠ [] := by
      rintro hnil
      simp [hnil] at hlong
    simp [World.stat, locate, pathBytes, hnul, FileTree.lookup_eq, FileTree.place, hne, hlong,
      FileTree.found]
  | strays hfollowable hstrays =>
    simp [World.stat, locate_followable hfollowable, hstrays.walk]
  | unnumbered hfollowable hroute hnode =>
    simp [World.stat, (locate_reaches hfollowable).mpr hroute, hnode]

theorem reaches_or_astray (w : World) (path : String) :
    (∃ node, w.Reaches path node) ∨ ∃ f, w.Astray path f := by
  by_cases hnul : HoldsNul path
  · exact .inr ⟨_, .nul hnul⟩
  by_cases hempty : path = ""
  · exact .inr ⟨_, .empty hempty⟩
  by_cases hshort : (bytesOf path).length ≤ Files.longestPath
  · have hfollowable : Followable path := ⟨hnul, hempty, hshort⟩
    cases hfound : FileTree.found (w.files.walk w.user .target Files.mostLinks
      (Path.ofBytes (bytesOf path)).names (w.start path)
      (Path.ofBytes (bytesOf path)).toDirectory) with
    | error e => exact .inr ⟨_, .strays hfollowable (FileTree.strays_of_walk hfound)⟩
    | ok id =>
      have hlocate : w.locate path = .ok id := by
        rw [locate_followable hfollowable, hfound]
        rfl
      have hroute := (locate_reaches hfollowable).mp hlocate
      cases hnode : w.files.node? id with
      | none => exact .inr ⟨_, .unnumbered hfollowable hroute hnode⟩
      | some node => exact .inl ⟨node, hfollowable, id, hroute, hnode⟩
  · exact .inr ⟨_, .tooLong hnul (Nat.not_le.mp hshort)⟩

theorem Reaches.unique {other : Node} (h : w.Reaches path node) (h' : w.Reaches path other) :
    node = other :=
  Except.ok.inj ((stat_reaches.mpr h).symm.trans (stat_reaches.mpr h'))

theorem Astray.unique {other : Failure} (h : w.Astray path f) (h' : w.Astray path other) :
    f = other :=
  Except.error.inj (h.stat.symm.trans h'.stat)

theorem Reaches.not_astray (h : w.Reaches path node) : ¬ w.Astray path f := fun h' =>
  nomatch (stat_reaches.mpr h).symm.trans h'.stat

theorem stat_astray : w.stat path = .error f ↔ w.Astray path f := by
  refine ⟨fun h => ?_, Astray.stat⟩
  rcases reaches_or_astray w path with ⟨node, hnode⟩ | ⟨f', hastray⟩
  · cases h.symm.trans (stat_reaches.mpr hnode)
  · cases h.symm.trans hastray.stat
    exact hastray

end World

end LineShell
