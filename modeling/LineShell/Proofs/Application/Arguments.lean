import LineShell.Options

/-!
# Accepted arguments

Which arguments start a session, and with what options. Arguments are a list of options as they
are spelled, each of which asks for something: a name for the configuration file, at most once, or
one more level of the log. `ofArguments_run_iff`: reading accepts such lists and no others.
-/

namespace LineShell

inductive Wish
  | louder
  | config (path : Bytes)
deriving DecidableEq

def Wish.path? : Wish → Option Bytes
  | .louder => none
  | .config path => some path

namespace Options

-- ---------------------------------------------------------------------------
-- Spellings
-- ---------------------------------------------------------------------------

/-- A value that may be an argument of its own. -/
def StandsAlone (value : Bytes) : Prop := value = bytesOf "-" ∨ ¬ bytesOf "-" <+: value

/-- Letters of one argument, with the next argument if it belongs to them, and what they ask for. -/
inductive Letters : Bytes → Option Bytes → List Wish → Prop
  | nothing : Letters [] none []
  | louder {letters : Bytes} {value : Option Bytes} {wishes : List Wish} :
      Letters letters value wishes → Letters (bytesOf "v" ++ letters) value (.louder :: wishes)
  | config {value : Bytes} : StandsAlone value →
      Letters (bytesOf "c") (some value) [.config value]
  | joined {value : Bytes} : value ≠ [] → ¬ bytesOf "=" <+: value →
      Letters (bytesOf "c" ++ value) none [.config value]
  | equated {value : Bytes} : Letters (bytesOf "c=" ++ value) none [.config value]

/-- One argument, with the next one if it belongs to it. -/
inductive Spells : Bytes → Option Bytes → List Wish → Prop
  | louder : Spells (bytesOf "--verbose") none [.louder]
  | config {value : Bytes} : StandsAlone value →
      Spells (bytesOf "--config") (some value) [.config value]
  | equated {value : Bytes} : Spells (bytesOf "--config=" ++ value) none [.config value]
  | letters {letters : Bytes} {value : Option Bytes} {wishes : List Wish} : letters ≠ [] →
      Letters letters value wishes → Spells (bytesOf "-" ++ letters) value wishes

/-- Arguments, which may be closed by two dashes. -/
inductive Lists : List Bytes → List Wish → Prop
  | nothing : Lists [] []
  | closed : Lists [bytesOf "--"] []
  | option {argument : Bytes} {value : Option Bytes} {rest : List Bytes}
      {wishes others : List Wish} : Spells argument value wishes → Lists rest others →
      Lists (argument :: (value.toList ++ rest)) (wishes ++ others)

/-- The arguments list what the options are, and name no file or one that has a name. -/
structure Accepts (arguments : List Bytes) (wishes : List Wish) (o : Options) : Prop where
  lists : Lists arguments wishes
  config : wishes.filterMap Wish.path? = o.config.toList
  named : o.config ≠ some []
  verbosity : wishes.count .louder = o.verbosity

-- ---------------------------------------------------------------------------
-- Wishes
-- ---------------------------------------------------------------------------

def grant (o : Options) : Wish → Except UsageError Options
  | .louder => .ok { o with verbosity := o.verbosity + 1 }
  | .config path => o.setConfig path

def grantAll (o : Options) : List Wish → Except UsageError Options
  | [] => .ok o
  | wish :: wishes => o.grant wish >>= fun o => o.grantAll wishes

variable {o o' : Options}

theorem grantAll_cons_eq_ok {wish : Wish} {wishes : List Wish} :
    o.grantAll (wish :: wishes) = .ok o' ↔
      ∃ next, o.grant wish = .ok next ∧ next.grantAll wishes = .ok o' := by
  rw [grantAll]
  cases o.grant wish with
  | error e => exact ⟨fun h => (nomatch h), fun ⟨_, h, _⟩ => (nomatch h)⟩
  | ok next => exact ⟨fun h => ⟨next, rfl, h⟩, fun ⟨_, h, hrest⟩ => Except.ok.inj h ▸ hrest⟩

theorem grantAll_append_eq_ok {wishes others : List Wish} :
    o.grantAll (wishes ++ others) = .ok o' ↔
      ∃ next, o.grantAll wishes = .ok next ∧ next.grantAll others = .ok o' := by
  induction wishes generalizing o with
  | nil => exact ⟨fun h => ⟨o, rfl, h⟩, fun ⟨_, h, hrest⟩ => Except.ok.inj h ▸ hrest⟩
  | cons wish wishes ih =>
    simp only [List.cons_append, grantAll_cons_eq_ok, ih]
    constructor
    · rintro ⟨first, hfirst, next, hnext, hothers⟩
      exact ⟨next, ⟨first, hfirst, hnext⟩, hothers⟩
    · rintro ⟨next, ⟨first, hfirst, hnext⟩, hothers⟩
      exact ⟨first, hfirst, next, hnext, hothers⟩

theorem setConfig_eq_ok {path : Bytes} : o.setConfig path = .ok o' ↔
    path ≠ [] ∧ o.config = none ∧ o' = { o with config := some path } := by
  unfold setConfig
  by_cases hpath : path = []
  · simp [hpath]
  · cases hconfig : o.config <;> simp [hpath, eq_comm]

theorem grantAll_eq_ok {wishes : List Wish} : o.grantAll wishes = .ok o' ↔
    o.config.toList ++ wishes.filterMap Wish.path? = o'.config.toList ∧
      [] ∉ wishes.filterMap Wish.path? ∧ o'.verbosity = o.verbosity + wishes.count .louder := by
  induction wishes generalizing o with
  | nil =>
    rcases o with ⟨config, verbosity⟩
    rcases o' with ⟨config', verbosity'⟩
    cases config <;> cases config' <;> simp [grantAll, eq_comm]
  | cons wish wishes ih =>
    rw [grantAll_cons_eq_ok]
    cases wish with
    | louder =>
      have hgrant : o.grant .louder = .ok { o with verbosity := o.verbosity + 1 } := rfl
      simp only [hgrant, Except.ok.injEq, exists_eq_left', ih, Wish.path?, List.filterMap_cons,
        List.count_cons_self, Nat.add_right_comm, Nat.add_assoc]
    | config path =>
      have hcount : (Wish.config path :: wishes).count .louder = wishes.count .louder :=
        List.count_cons_of_ne (by simp)
      simp only [grant, setConfig_eq_ok, hcount, Wish.path?, List.filterMap_cons]
      cases hconfig : o.config with
      | none => simpa [ih, and_assoc, eq_comm] using and_left_comm
      | some other => cases hconfig' : o'.config <;> simp

-- ---------------------------------------------------------------------------
-- Reading what is spelled
-- ---------------------------------------------------------------------------

theorem dash_prefix_iff {value : Bytes} : bytesOf "-" <+: value ↔ value.head? = some dash := by
  cases value with
  | nil => simp [bytesOf, Utf8.encode]
  | cons first rest =>
    rw [show bytesOf "-" = [dash] from rfl, List.cons_prefix_cons, List.head?_cons]
    simp [eq_comm]

theorem looksLikeOption_eq_false {value : Bytes} :
    looksLikeOption value = false ↔ StandsAlone value := by
  rw [looksLikeOption, StandsAlone, dash_prefix_iff]
  by_cases hdash : value = [dash] <;> simp [hdash, show bytesOf "-" = [dash] from rfl]

def Reads (o' : Options) (value : Option Bytes) (group : Except UsageError Group) : Prop :=
  match value with
  | none => group = .ok (.done o')
  | some value => ∃ o, group = .ok (.wantsValue o) ∧ o.setConfig value = .ok o'

theorem grantAll_singleton {wish : Wish} : o.grantAll [wish] = .ok o' ↔ o.grant wish = .ok o' := by
  rw [grantAll_cons_eq_ok]
  exact ⟨fun ⟨_, h, hrest⟩ => Except.ok.inj hrest ▸ h, fun h => ⟨o', h, rfl⟩⟩

theorem readGroup_config (argument : Bytes) {value : Bytes} (hvalue : value ≠ []) :
    readGroup argument o (bytesOf "c" ++ value) = (o.setConfig (attached value)).map .done := by
  change readGroup argument o ('c'.toUInt8 :: value) = _
  rw [readGroup, if_neg (by decide), if_neg (by decide), if_neg (by decide), if_pos rfl,
    if_neg hvalue]

theorem Letters.reads {letters : Bytes} {value : Option Bytes} {wishes : List Wish}
    (h : Letters letters value wishes) (argument : Bytes) (hgrant : o.grantAll wishes = .ok o') :
    Reads o' value (readGroup argument o letters) := by
  -- Every letter but the last changes the options that the rest starts from.
  induction h generalizing o with
  | nothing =>
    obtain rfl := Except.ok.inj hgrant
    rfl
  | louder _ ih => exact ih hgrant
  | config _ => exact ⟨o, rfl, grantAll_singleton.mp hgrant⟩
  | @joined value hvalue hequality =>
    have hset : o.setConfig value = .ok o' := grantAll_singleton.mp hgrant
    have hattached : attached value = value := by
      refine if_neg fun hhead => hequality ?_
      obtain ⟨rest, rfl⟩ := List.head?_eq_some_iff.mp hhead
      exact List.prefix_append (bytesOf "=") rest
    rw [Reads, readGroup_config argument hvalue, hattached, hset]
    rfl
  | @equated value =>
    have hset : o.setConfig value = .ok o' := grantAll_singleton.mp hgrant
    have hread := readGroup_config (o := o) argument (List.cons_ne_nil equality value)
    rw [show attached (equality :: value) = value from rfl, hset] at hread
    exact hread

theorem Letters.first {letters : Bytes} {value : Option Bytes} {wishes : List Wish}
    (h : Letters letters value wishes) (hne : letters ≠ []) :
    ∃ first rest, letters = first :: rest ∧ first ≠ dash := by
  cases h with
  | nothing => exact absurd rfl hne
  | _ => exact ⟨_, _, rfl, by decide⟩

theorem readArgument_letters {first : UInt8} (hfirst : first ≠ dash) (rest : Bytes)
    (o : Options) :
    readArgument (dash :: first :: rest) o =
      readGroup (dash :: first :: rest) o (first :: rest) := by
  simp [readArgument, hfirst]

theorem equated_ne (value : Bytes) {argument : Bytes}
    (h : argument.take 9 ≠ bytesOf "--config=") : bytesOf "--config=" ++ value ≠ argument := by
  rintro rfl
  exact h (List.take_left' rfl)

theorem readArgument_equated (value : Bytes) (o : Options) :
    readArgument (bytesOf "--config=" ++ value) o = (o.setConfig value).map .done := by
  have hlong : readArgument (bytesOf "--config=" ++ value) o =
      readLong (bytesOf "--config=" ++ value) o := rfl
  have hhelp : bytesOf "--config=" ++ value ≠ bytesOf "--help" := equated_ne value (by decide)
  have hversion : bytesOf "--config=" ++ value ≠ bytesOf "--version" :=
    equated_ne value (by decide)
  have hverbose : bytesOf "--config=" ++ value ≠ bytesOf "--verbose" :=
    equated_ne value (by decide)
  have hconfig : bytesOf "--config=" ++ value ≠ longConfig := equated_ne value (by decide)
  have hprefix : (longConfig ++ [equality]).isPrefixOf (bytesOf "--config=" ++ value) = true :=
    List.isPrefixOf_iff_prefix.mpr (List.prefix_append (bytesOf "--config=") value)
  have hdrop : (bytesOf "--config=" ++ value).drop (longConfig.length + 1) = value :=
    List.drop_left' rfl
  rw [hlong, readLong, if_neg hhelp, if_neg hversion, if_neg hverbose, if_neg hconfig,
    if_pos hprefix, hdrop]

theorem Spells.reads {argument : Bytes} {value : Option Bytes} {wishes : List Wish}
    (h : Spells argument value wishes) (hgrant : o.grantAll wishes = .ok o') :
    Reads o' value (readArgument argument o) := by
  cases h with
  | louder =>
    obtain rfl : { o with verbosity := o.verbosity + 1 } = o' :=
      Except.ok.inj (grantAll_singleton.mp hgrant)
    rfl
  | config _ => exact ⟨o, rfl, grantAll_singleton.mp hgrant⟩
  | @equated value =>
    have hset : o.setConfig value = .ok o' := grantAll_singleton.mp hgrant
    rw [Reads, readArgument_equated, hset]
    rfl
  | @letters letters value wishes hne hletters =>
    obtain ⟨first, rest, rfl, hfirst⟩ := hletters.first hne
    have hread := hletters.reads (dash :: first :: rest) hgrant
    rwa [← readArgument_letters hfirst] at hread

theorem Spells.ne_dashes {argument : Bytes} {value : Option Bytes} {wishes : List Wish}
    (h : Spells argument value wishes) : argument ≠ [dash, dash] := by
  cases h with
  | louder => decide
  | config _ => decide
  | equated => exact equated_ne _ (by decide)
  | letters hne hletters =>
    obtain ⟨first, rest, rfl, hfirst⟩ := hletters.first hne
    intro hdashes
    exact hfirst (List.cons.inj (List.cons.inj hdashes).2).1

theorem Letters.standsAlone {letters : Bytes} {value : Option Bytes} {wishes : List Wish}
    (h : Letters letters value wishes) : ∀ text, value = some text → StandsAlone text := by
  induction h with
  | louder _ ih => exact ih
  | config hvalue => exact fun text htext => Option.some.inj htext ▸ hvalue
  | _ => exact fun text htext => (nomatch htext)

theorem Spells.standsAlone {argument value : Bytes} {wishes : List Wish}
    (h : Spells argument (some value) wishes) : StandsAlone value := by
  cases h with
  | config hvalue => exact hvalue
  | letters _ hletters => exact hletters.standsAlone value rfl

theorem read_cons {argument : Bytes} (h : argument ≠ [dash, dash]) (rest : List Bytes) :
    o.read (argument :: rest) =
      match readArgument argument o with
      | .error e => .error e
      | .ok (.request request) => .ok request
      | .ok (.done o) => o.read rest
      | .ok (.wantsValue o) =>
        match rest with
        | [] => .error .missingValue
        | value :: rest =>
          if looksLikeOption value then .error .missingValue
          else match o.setConfig value with
            | .error e => .error e
            | .ok o => o.read rest := by
  rw [Options.read.eq_def]
  exact if_neg h

theorem Spells.read {argument : Bytes} {value : Option Bytes} {wishes : List Wish}
    (h : Spells argument value wishes) (hgrant : o.grantAll wishes = .ok o') (rest : List Bytes) :
    o.read (argument :: (value.toList ++ rest)) = o'.read rest := by
  have hreads := h.reads hgrant
  rw [read_cons h.ne_dashes]
  cases value with
  | none =>
    rw [Reads] at hreads
    rw [hreads]
    rfl
  | some value =>
    obtain ⟨next, hread, hset⟩ := hreads
    have halone := looksLikeOption_eq_false.mpr h.standsAlone
    rw [hread]
    simp only [Option.toList_some, List.singleton_append, halone, hset]
    rfl

-- ---------------------------------------------------------------------------
-- What is read is spelled
-- ---------------------------------------------------------------------------

def Takes (spells : Option Bytes → List Wish → Prop) (o : Options) : Group → Prop
  | .done o' => ∃ wishes, spells none wishes ∧ o.grantAll wishes = .ok o'
  | .wantsValue o' => ∃ wishes, o.grantAll wishes = .ok o' ∧
      ∀ value, StandsAlone value → spells (some value) (wishes ++ [.config value])
  | .request request => request = .help ∨ request = .version

theorem Takes.after {spells spells' : Option Bytes → List Wish → Prop} {first : List Wish}
    {group : Group} (h : Takes spells o' group) (hfirst : o.grantAll first = .ok o')
    (hmore : ∀ value wishes, spells value wishes → spells' value (first ++ wishes)) :
    Takes spells' o group := by
  cases group with
  | done next =>
    obtain ⟨wishes, hspells, hgrant⟩ := h
    exact ⟨first ++ wishes, hmore _ _ hspells, grantAll_append_eq_ok.mpr ⟨o', hfirst, hgrant⟩⟩
  | wantsValue next =>
    obtain ⟨wishes, hgrant, hspells⟩ := h
    refine ⟨first ++ wishes, grantAll_append_eq_ok.mpr ⟨o', hfirst, hgrant⟩, fun value hvalue => ?_⟩
    rw [List.append_assoc]
    exact hmore _ _ (hspells value hvalue)
  | request _ => exact h

theorem takes_config {spells : Option Bytes → List Wish → Prop} {path : Bytes} {group : Group}
    (h : (o.setConfig path).map Group.done = .ok group) (hspells : spells none [.config path]) :
    Takes spells o group := by
  cases hset : o.setConfig path with
  | error e => simp [hset, Except.map] at h
  | ok o' =>
    obtain rfl : .done o' = group := by simpa [hset, Except.map] using h
    exact ⟨_, hspells, grantAll_singleton.mpr hset⟩

theorem letters_attached {rest : Bytes} (h : rest ≠ []) :
    Letters ('c'.toUInt8 :: rest) none [.config (attached rest)] := by
  unfold attached
  split
  · next hhead =>
    obtain ⟨value, rfl⟩ := List.head?_eq_some_iff.mp hhead
    exact .equated
  · next hhead =>
    refine .joined h fun hequality => hhead ?_
    obtain ⟨value, rfl⟩ := hequality
    rfl

theorem takes_readGroup {argument letters : Bytes} {group : Group}
    (h : readGroup argument o letters = .ok group) : Takes (Letters letters) o group := by
  induction letters generalizing o with
  | nil =>
    obtain rfl := Except.ok.inj h
    exact ⟨[], .nothing, rfl⟩
  | cons letter rest ih =>
    rw [readGroup] at h
    split at h
    · next hletter =>
      subst hletter
      exact (ih h).after (rfl : o.grantAll [.louder] = _) fun _ _ => .louder
    split at h
    · obtain rfl := Except.ok.inj h
      exact .inl rfl
    split at h
    · obtain rfl := Except.ok.inj h
      exact .inr rfl
    split at h
    · next hletter =>
      subst hletter
      split at h
      · next hrest =>
        obtain rfl := Except.ok.inj h
        subst hrest
        exact ⟨[], rfl, fun value hvalue => .config hvalue⟩
      · next hrest => exact takes_config h (letters_attached hrest)
    · cases h

theorem takes_readLong {argument : Bytes} {group : Group}
    (h : readLong argument o = .ok group) : Takes (Spells argument) o group := by
  unfold readLong at h
  split at h
  · obtain rfl := Except.ok.inj h
    exact .inl rfl
  split at h
  · obtain rfl := Except.ok.inj h
    exact .inr rfl
  split at h
  · next hverbose =>
    obtain rfl := Except.ok.inj h
    subst hverbose
    exact ⟨[.louder], .louder, rfl⟩
  split at h
  · next hconfig =>
    obtain rfl := Except.ok.inj h
    subst hconfig
    exact ⟨[], rfl, fun value hvalue => .config hvalue⟩
  split at h
  · next hprefix =>
    obtain ⟨path, rfl⟩ := List.isPrefixOf_iff_prefix.mp hprefix
    rw [show (longConfig ++ [equality] ++ path).drop (longConfig.length + 1) = path from
      List.drop_left' rfl] at h
    exact takes_config h .equated
  · cases h

theorem takes_readArgument {argument : Bytes} {group : Group}
    (h : readArgument argument o = .ok group) : Takes (Spells argument) o group := by
  unfold readArgument at h
  split at h
  · next first second rest =>
    split at h
    · cases h
    · next hfirst =>
      obtain rfl := Decidable.not_not.mp hfirst
      split at h
      · exact takes_readLong h
      · refine (takes_readGroup h).after (rfl : o.grantAll [] = _) fun value wishes hletters => ?_
        exact .letters (List.cons_ne_nil second rest) hletters
  · cases h

theorem lists_of_read {arguments : List Bytes} (h : o.read arguments = .ok (.run o')) :
    ∃ wishes, Lists arguments wishes ∧ o.grantAll wishes = .ok o' := by
  fun_induction Options.read o arguments with
  | case1 o =>
    obtain rfl : o = o' := by simpa using h
    exact ⟨[], .nothing, rfl⟩
  | case2 o =>
    obtain rfl : o = o' := by simpa using h
    exact ⟨[], .closed, rfl⟩
  | case5 o argument rest _ request hread =>
    obtain rfl := Except.ok.inj h
    rcases takes_readArgument hread with hrequest | hrequest
    · cases hrequest
    · cases hrequest
  | case6 o argument rest _ next hread ih =>
    obtain ⟨wishes, hspells, hgrant⟩ := takes_readArgument hread
    obtain ⟨others, hlists, hothers⟩ := ih h
    exact ⟨wishes ++ others, .option hspells hlists,
      grantAll_append_eq_ok.mpr ⟨next, hgrant, hothers⟩⟩
  | case10 o argument _ mid hread value rest hlooks next hset ih =>
    obtain ⟨wishes, hgrant, hspells⟩ := takes_readArgument hread
    obtain ⟨others, hlists, hothers⟩ := ih h
    have hvalue := looksLikeOption_eq_false.mp (Bool.eq_false_iff.mpr hlooks)
    have hwishes : o.grantAll (wishes ++ [.config value]) = .ok next :=
      grantAll_append_eq_ok.mpr ⟨mid, hgrant, grantAll_singleton.mpr hset⟩
    exact ⟨_, .option (hspells value hvalue) hlists,
      grantAll_append_eq_ok.mpr ⟨next, hwishes, hothers⟩⟩
  | case3 | case4 | case7 | case8 | case9 => cases h

theorem Lists.read {arguments : List Bytes} {wishes : List Wish} (h : Lists arguments wishes)
    (hgrant : o.grantAll wishes = .ok o') : o.read arguments = .ok (.run o') := by
  induction h generalizing o with
  | nothing | closed =>
    obtain rfl := Except.ok.inj hgrant
    rfl
  | @option argument value rest wishes others hspells _ ih =>
    obtain ⟨next, hnext, hothers⟩ := grantAll_append_eq_ok.mp hgrant
    rw [hspells.read hnext, ih hothers]

/-- A session starts just for arguments that list its options. -/
theorem ofArguments_run_iff {arguments : List Bytes} {o : Options} :
    Request.ofArguments arguments = .ok (.run o) ↔ ∃ wishes, Accepts arguments wishes o := by
  have hgranted (wishes : List Wish) : grantAll {} wishes = .ok o ↔
      wishes.filterMap Wish.path? = o.config.toList ∧
        [] ∉ wishes.filterMap Wish.path? ∧ o.verbosity = wishes.count .louder := by
    rw [grantAll_eq_ok, Nat.zero_add]
    rfl
  constructor
  · intro h
    obtain ⟨wishes, hlists, hgrant⟩ := lists_of_read h
    obtain ⟨hconfig, hnamed, hverbosity⟩ := (hgranted wishes).mp hgrant
    refine ⟨wishes, hlists, hconfig, ?_, hverbosity.symm⟩
    intro hempty
    rw [hconfig, hempty] at hnamed
    simp at hnamed
  · rintro ⟨wishes, hlists, hconfig, hnamed, hverbosity⟩
    refine hlists.read ((hgranted wishes).mpr ⟨hconfig, ?_, hverbosity.symm⟩)
    rw [hconfig, Option.mem_toList]
    exact hnamed

end Options

end LineShell
