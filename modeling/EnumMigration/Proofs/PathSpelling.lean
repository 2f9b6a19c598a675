import EnumMigration.Path
import EnumMigration.Proofs.Splitting
import Mathlib.Data.List.Infix

/-!
# Spellings of a path

Which spellings have the same components.  A slash may be repeated, it may stand at the end, and a
single dot may stand between slashes; only what a path begins with has to stay.  Joining a plain
name to a path adds a component, and a parent has the first components of its path.

## Strategy

Behind the first slash a path is its pieces, one by one (`named`), and `components_slash` takes any
path apart at any of its slashes.
-/

namespace EnumMigration

namespace Path

/-- The components that the pieces of a text stand for. -/
def named (text : List Char) : List Component := (text.splitOn '/').filterMap component?

theorem named_append (before after : List Char) :
    named (before ++ '/' :: after) = named before ++ named after := by
  rw [named, List.splitOn_append_cons_self, List.filterMap_append]
  rfl

theorem named_slash (rest : List Char) : named ('/' :: rest) = named rest := named_append [] rest

theorem named_dot (rest : List Char) : named ('.' :: '/' :: rest) = named rest :=
  named_append ['.'] rest

theorem named_intercalate {pieces : List (List Char)} (h : ∀ piece ∈ pieces, '/' ∉ piece) :
    named (['/'].intercalate pieces) = pieces.filterMap component? := by
  induction pieces with
  | nil => rfl
  | cons piece pieces ih =>
      obtain ⟨hpiece, hrest⟩ := List.forall_mem_cons.mp h
      have hfirst : named piece = [piece].filterMap component? := by
        rw [named, List.splitOn_eq_singleton hpiece]
      cases pieces with
      | nil => rw [List.intercalate_singleton, hfirst]
      | cons next pieces =>
          rw [intercalate_cons_cons, named_append, ih hrest, hfirst, ← List.filterMap_append]
          rfl

/-! ## Ways to begin -/

variable {path : Path} {rest : List Char}

theorem shape_of_root (h : path.text.toList = '/' :: rest) :
    path.shape = ⟨.root, rest.splitOn '/'⟩ := by
  unfold shape
  rw [h]
  rfl

theorem shape_of_dot (h : path.text.toList = ['.']) : path.shape = ⟨.dot, [[]]⟩ := by
  unfold shape
  rw [h]
  rfl

theorem shape_of_here (h : path.text.toList = '.' :: '/' :: rest) :
    path.shape = ⟨.dot, [] :: rest.splitOn '/'⟩ := by
  unfold shape
  rw [h]
  rfl

/-- A text that begins neither at the root nor with a single dot. -/
structure IsPlain (text : List Char) : Prop where
  not_root : ∀ rest, text ≠ '/' :: rest
  not_dot : text ≠ ['.']
  not_here : ∀ rest, text ≠ '.' :: '/' :: rest

theorem shape_of_plain (h : IsPlain path.text.toList) :
    path.shape = ⟨.none, path.text.toList.splitOn '/'⟩ := by
  unfold shape
  split
  · exact absurd ‹_› (h.not_root _)
  · exact absurd ‹_› h.not_dot
  · exact absurd ‹_› (h.not_here _)
  · rfl

theorem components_of_root (h : path.text.toList = '/' :: rest) :
    path.components = .root :: named rest := by
  rw [components, shape_of_root h]
  rfl

theorem components_of_dot (h : path.text.toList = ['.']) : path.components = [.here] := by
  rw [components, shape_of_dot h]
  rfl

theorem components_of_here (h : path.text.toList = '.' :: '/' :: rest) :
    path.components = .here :: named rest := by
  rw [components, shape_of_here h]
  rfl

theorem components_of_plain (h : IsPlain path.text.toList) :
    path.components = named path.text.toList := by
  rw [components, shape_of_plain h]
  rfl

theorem components_of_empty (h : path.text.toList = []) : path.components = [] := by
  have hplain : IsPlain path.text.toList := by
    rw [h]
    exact ⟨nofun, nofun, nofun⟩
  rw [components_of_plain hplain, h]
  rfl

theorem begins (text : List Char) :
    (∃ rest, text = '/' :: rest) ∨ text = ['.'] ∨ (∃ rest, text = '.' :: '/' :: rest) ∨
      IsPlain text := by
  by_cases hroot : ∃ rest, text = '/' :: rest
  · exact .inl hroot
  by_cases hdot : text = ['.']
  · exact .inr (.inl hdot)
  by_cases hhere : ∃ rest, text = '.' :: '/' :: rest
  · exact .inr (.inr (.inl hhere))
  exact .inr (.inr (.inr ⟨not_exists.mp hroot, hdot, not_exists.mp hhere⟩))

/-- What a slash is put behind stays plain. -/
theorem IsPlain.append {text : List Char} (h : IsPlain text) (hne : text ≠ []) (rest : List Char) :
    IsPlain (text ++ '/' :: rest) := by
  obtain ⟨c, text, rfl⟩ := List.exists_cons_of_ne_nil hne
  have hroot : c ≠ '/' := fun hc => h.not_root text (by rw [hc])
  refine ⟨?_, ?_, ?_⟩
  · intro more heq
    exact hroot (List.cons.inj heq).1
  · intro heq
    simp at heq
  · intro more heq
    obtain ⟨hc, hmore⟩ := List.cons.inj heq
    cases text with
    | nil => exact h.not_dot (by rw [hc])
    | cons d text =>
        have hd : d = '/' := (List.cons.inj hmore).1
        exact h.not_here text (by rw [hc, hd])

/-- A path taken apart at a slash. -/
theorem components_slash {before : Path} {after : List Char}
    (h : path.text.toList = before.text.toList ++ '/' :: after) :
    path.components =
      (if before.text.toList = [] then [.root] else before.components) ++ named after := by
  by_cases hempty : before.text.toList = []
  · rw [if_pos hempty]
    rw [hempty] at h
    exact components_of_root h
  rw [if_neg hempty]
  rcases begins before.text.toList with ⟨rest, hbefore⟩ | hbefore | ⟨rest, hbefore⟩ | hplain
  · rw [hbefore, List.cons_append] at h
    rw [components_of_root h, components_of_root hbefore, named_append]
    rfl
  · rw [hbefore] at h
    rw [components_of_here h, components_of_dot hbefore]
    rfl
  · rw [hbefore, List.cons_append, List.cons_append] at h
    rw [components_of_here h, components_of_here hbefore, named_append]
    rfl
  · have hpath : IsPlain path.text.toList := h ▸ hplain.append hempty after
    rw [components_of_plain hpath, components_of_plain hplain, h, named_append]

/-! ## Spellings that make no difference -/

theorem components_repeated_slash (before after : String) :
    (Path.mk (before ++ "//" ++ after)).components =
      (Path.mk (before ++ "/" ++ after)).components := by
  have hlong : (Path.mk (before ++ "//" ++ after)).text.toList =
      (Path.mk before).text.toList ++ '/' :: '/' :: after.toList := by simp
  have hshort : (Path.mk (before ++ "/" ++ after)).text.toList =
      (Path.mk before).text.toList ++ '/' :: after.toList := by simp
  rw [components_slash hlong, components_slash hshort, named_slash]

theorem components_inner_dot (before after : String) :
    (Path.mk (before ++ "/./" ++ after)).components =
      (Path.mk (before ++ "/" ++ after)).components := by
  have hlong : (Path.mk (before ++ "/./" ++ after)).text.toList =
      (Path.mk before).text.toList ++ '/' :: '.' :: '/' :: after.toList := by simp
  have hshort : (Path.mk (before ++ "/" ++ after)).text.toList =
      (Path.mk before).text.toList ++ '/' :: after.toList := by simp
  rw [components_slash hlong, components_slash hshort, named_dot]

/-- At the end of a path, a slash makes no difference, with or without a dot behind it. -/
theorem components_trailing {text : String} (hne : text ≠ "") :
    (Path.mk (text ++ "/")).components = (Path.mk text).components ∧
      (Path.mk (text ++ "/.")).components = (Path.mk text).components := by
  have hchars : (Path.mk text).text.toList ≠ [] := by simpa using hne
  have hslash : (Path.mk (text ++ "/")).text.toList =
      (Path.mk text).text.toList ++ '/' :: [] := by simp
  have hdot : (Path.mk (text ++ "/.")).text.toList =
      (Path.mk text).text.toList ++ '/' :: ['.'] := by simp
  rw [components_slash hslash, components_slash hdot, if_neg hchars]
  exact ⟨List.append_nil _, List.append_nil _⟩

/-- What a path begins with does make a difference. -/
theorem components_beginnings {text : String} (hplain : IsPlain text.toList) :
    (Path.mk ("./" ++ text)).components ≠ (Path.mk text).components ∧
      (Path.mk ("/" ++ text)).components ≠ (Path.mk text).components ∧
      (Path.mk ("./" ++ text)).components ≠ (Path.mk ("/" ++ text)).components := by
  have hhere : (Path.mk ("./" ++ text)).components = .here :: named text.toList :=
    components_of_here (by simp)
  have hroot : (Path.mk ("/" ++ text)).components = .root :: named text.toList :=
    components_of_root (by simp)
  have hbare : (Path.mk text).components = named text.toList := components_of_plain hplain
  rw [hhere, hroot, hbare]
  refine ⟨?_, ?_, ?_⟩
  · exact List.cons_ne_self _ _
  · exact List.cons_ne_self _ _
  · intro heq
    cases (List.cons.inj heq).1

/-! ## Below and above a path -/

/-- A name joined to a path is a component more. -/
theorem components_join {name : String} (hplain : IsPlain name.toList)
    (hname : named name.toList = [.name name]) (directory : Path) :
    (directory.join ⟨name⟩).components = directory.components ++ [.name name] := by
  have hrelative : (Path.mk name).isAbsolute = false := by
    unfold isAbsolute
    cases hchars : name.toList with
    | nil => rfl
    | cons c rest =>
        have hc : c ≠ '/' := fun hc => hplain.not_root rest (by rw [hchars, hc])
        simpa using hc
  unfold join
  rw [hrelative, Bool.false_or]
  split
  · rename_i hempty
    have hchars : directory.text.toList = [] := by simpa using hempty
    have hbare : (Path.mk name).components = named name.toList := components_of_plain hplain
    rw [components_of_empty hchars, hbare, hname]
    rfl
  · rename_i hempty
    have hchars : directory.text.toList ≠ [] := by simpa using hempty
    split
    · rename_i hlast
      -- the slash is there already
      obtain ⟨outer, houter⟩ : ∃ outer, directory.text.toList = outer ++ ['/'] :=
        ⟨_, (List.dropLast_append_getLast? '/' (by simpa using hlast)).symm⟩
      have hjoined : (Path.mk (directory.text ++ name)).text.toList =
          (Path.mk (String.ofList outer)).text.toList ++ '/' :: name.toList := by simp [houter]
      have hbase : directory.text.toList =
          (Path.mk (String.ofList outer)).text.toList ++ '/' :: [] := by simpa using houter
      rw [components_slash hjoined, components_slash hbase, hname]
      simp [named, List.splitOn_nil, component?, isIdlePiece]
    · have hjoined : (Path.mk (directory.text ++ "/" ++ name)).text.toList =
          directory.text.toList ++ '/' :: name.toList := by simp
      rw [components_slash hjoined, if_neg hchars, hname]

theorem components_of_pieces {first : List Char} {more : List (List Char)}
    (h : path.text.toList = ['/'].intercalate (first :: more))
    (hfree : ∀ piece ∈ more, '/' ∉ piece) (hfirst : first ≠ []) :
    path.components =
      (Path.mk (String.ofList first)).components ++ more.filterMap component? := by
  cases more with
  | nil =>
      obtain ⟨text⟩ := path
      obtain rfl : text = String.ofList first := by simpa [String.ext_iff] using h
      simp
  | cons next more =>
      have hslash : path.text.toList =
          (Path.mk (String.ofList first)).text.toList ++ '/' :: ['/'].intercalate (next :: more) := by
        simpa [intercalate_cons_cons] using h
      rw [components_slash hslash, named_intercalate hfree, if_neg (by simpa using hfirst)]

theorem exists_component {piece : List Char} (h : isIdlePiece piece = false) :
    ∃ component, component? piece = some component := by
  unfold component?
  rw [h]
  split
  · contradiction
  · split <;> exact ⟨_, rfl⟩

/-- The text of a parent: the pieces of the path up to one that is a component. -/
theorem text_of_parent? {parent : Path} {beginning : Beginning} {all : List (List Char)}
    (hshape : path.shape = ⟨beginning, all⟩) (h : path.parent? = some parent) :
    beginning = .dot ∧ parent.text.toList = [] ∨ ∃ pieces more, all = pieces ++ more ∧
      more.filterMap component? ≠ [] ∧ parent.text.toList =
        (if beginning = .root then ['/'] else if beginning = .dot then ['.'] else []) ++
          ['/'].intercalate pieces := by
  unfold parent? at h
  rw [hshape] at h
  dsimp only at h
  split at h
  · rename_i last outer hpieces
    obtain rfl := Option.some.inj h
    have hlast : isIdlePiece last = false := by
      have hhead := List.head?_dropWhile_not isIdlePiece all.reverse
      simpa [hpieces] using hhead
    have houter : outer.reverse =
        (outer.dropWhile isIdlePiece).reverse ++ (outer.takeWhile isIdlePiece).reverse := by
      rw [← List.reverse_append, List.takeWhile_append_dropWhile]
    have hall : all = (outer.dropWhile isIdlePiece).reverse ++
        ((outer.takeWhile isIdlePiece).reverse ++
          last :: (all.reverse.takeWhile isIdlePiece).reverse) := by
      calc
        all = all.reverse.reverse := all.reverse_reverse.symm
        _ = (all.reverse.takeWhile isIdlePiece ++ last :: outer).reverse := by
          rw [← hpieces, List.takeWhile_append_dropWhile]
        _ = outer.reverse ++ last :: (all.reverse.takeWhile isIdlePiece).reverse := by simp
        _ = _ := by rw [houter, List.append_assoc]
    refine .inr ⟨_, _, hall, ?_, ?_⟩
    · obtain ⟨component, hcomponent⟩ := exists_component hlast
      rw [List.filterMap_append, List.filterMap_cons_some hcomponent]
      simp
    · cases beginning <;> exact String.toList_ofList
  · split at h
    · rename_i hdot
      obtain rfl := Option.some.inj h
      exact .inl ⟨hdot, rfl⟩
    · cases h

theorem slash_not_mem {text : List Char} {pieces more : List (List Char)}
    (hall : text.splitOn '/' = pieces ++ more) : ∀ piece ∈ pieces ++ more, '/' ∉ piece := by
  intro piece hmem
  rw [← hall] at hmem
  exact not_mem_of_mem_splitOn hmem

theorem components_of_dotted {pieces : List (List Char)}
    (h : path.text.toList = '.' :: ['/'].intercalate ([] :: pieces))
    (hfree : ∀ piece ∈ pieces, '/' ∉ piece) :
    path.components = .here :: pieces.filterMap component? := by
  cases pieces with
  | nil => exact components_of_dot h
  | cons next pieces =>
      rw [← named_intercalate hfree]
      exact components_of_here h

section FirstPieces

variable {parent : Path} {pieces more : List (List Char)}

theorem components_of_first_dotted (hpath : path.text.toList = '.' :: '/' :: rest)
    (hall : [] :: rest.splitOn '/' = pieces ++ more)
    (htext : parent.text.toList = '.' :: ['/'].intercalate pieces) :
    path.components = parent.components ++ more.filterMap component? := by
  rw [components_of_here hpath]
  cases pieces with
  | nil =>
      obtain rfl : [] :: rest.splitOn '/' = more := hall
      rw [components_of_dot htext]
      rfl
  | cons first pieces =>
      rw [List.cons_append] at hall
      obtain ⟨rfl, hrest⟩ := List.cons.inj hall
      have hfree := (List.forall_mem_append.mp (slash_not_mem hrest)).1
      rw [components_of_dotted htext hfree, named, hrest, List.filterMap_append]
      rfl

theorem components_of_first_plain (hplain : IsPlain path.text.toList)
    (hall : path.text.toList.splitOn '/' = pieces ++ more) (hmore : more ≠ [])
    (htext : parent.text.toList = ['/'].intercalate pieces) :
    path.components = parent.components ++ more.filterMap component? := by
  have hfree := slash_not_mem hall
  cases pieces with
  | nil =>
      rw [components_of_plain hplain, components_of_empty htext, named, hall]
      rfl
  | cons first pieces =>
      have hpath : ['/'].intercalate (path.text.toList.splitOn '/') = path.text.toList :=
        List.intercalate_splitOn '/'
      rw [hall, List.cons_append] at hpath
      obtain ⟨-, hrest⟩ := List.forall_mem_cons.mp hfree
      have hfirst : first ≠ [] := by
        rintro rfl
        -- more pieces follow, so the path would begin at the root
        obtain ⟨next, others, hnext⟩ : ∃ next others, pieces ++ more = next :: others :=
          List.exists_cons_of_ne_nil (by simp [hmore])
        rw [hnext] at hpath
        exact hplain.not_root _ hpath.symm
      rw [components_of_pieces hpath.symm hrest hfirst,
        components_of_pieces htext (List.forall_mem_append.mp hrest).1 hfirst,
        List.filterMap_append, List.append_assoc]

/-- A path has at least one component more than its parent. -/
theorem components_of_parent? (h : path.parent? = some parent) :
    ∃ rest, rest ≠ [] ∧ path.components = parent.components ++ rest := by
  rcases begins path.text.toList with ⟨rest, hpath⟩ | hpath | ⟨rest, hpath⟩ | hplain
  · rcases text_of_parent? (shape_of_root hpath) h with
      ⟨hdot, -⟩ | ⟨pieces, more, hall, hmore, htext⟩
    · cases hdot
    · replace htext : parent.text.toList = '/' :: ['/'].intercalate pieces := htext
      have hfree := (List.forall_mem_append.mp (slash_not_mem hall)).1
      refine ⟨_, hmore, ?_⟩
      rw [components_of_root hpath, components_of_root htext, named_intercalate hfree, named, hall,
        List.filterMap_append]
      rfl
  · rcases text_of_parent? (shape_of_dot hpath) h with ⟨-, hempty⟩ | ⟨pieces, more, hall, hmore, -⟩
    · refine ⟨[.here], nofun, ?_⟩
      rw [components_of_dot hpath, components_of_empty hempty]
      rfl
    · -- a dot alone has no other component
      have hnone : (pieces ++ more).filterMap component? = [] := by
        rw [← hall]
        rfl
      rw [List.filterMap_append, List.append_eq_nil_iff] at hnone
      exact absurd hnone.2 hmore
  · rcases text_of_parent? (shape_of_here hpath) h with
      ⟨-, hempty⟩ | ⟨pieces, more, hall, hmore, htext⟩
    · refine ⟨.here :: named rest, nofun, ?_⟩
      rw [components_of_here hpath, components_of_empty hempty]
      rfl
    · exact ⟨_, hmore, components_of_first_dotted hpath hall htext⟩
  · rcases text_of_parent? (shape_of_plain hplain) h with
      ⟨hdot, -⟩ | ⟨pieces, more, hall, hmore, htext⟩
    · cases hdot
    · have hne : more ≠ [] := by
        rintro rfl
        exact hmore rfl
      exact ⟨_, hmore, components_of_first_plain hplain hall hne htext⟩

end FirstPieces

/-- The parent of what a directory holds is the directory or above it. -/
theorem prefix_of_parent?_join {name : String} (hplain : IsPlain name.toList)
    (hname : named name.toList = [.name name]) {directory parent : Path}
    (h : (directory.join ⟨name⟩).parent? = some parent) :
    parent.components <+: directory.components := by
  obtain ⟨rest, hne, hcomponents⟩ := components_of_parent? h
  rw [components_join hplain hname] at hcomponents
  refine ⟨rest.dropLast, ?_⟩
  calc
    parent.components ++ rest.dropLast = (parent.components ++ rest).dropLast := by
      rw [List.dropLast_append_of_ne_nil hne]
    _ = (directory.components ++ [Component.name name]).dropLast := by rw [hcomponents]
    _ = directory.components := List.dropLast_concat

theorem prefix_of_parent? {parent : Path} (h : path.parent? = some parent) :
    parent.components <+: path.components := by
  obtain ⟨rest, -, hcomponents⟩ := components_of_parent? h
  exact ⟨rest, hcomponents.symm⟩

end Path

end EnumMigration
