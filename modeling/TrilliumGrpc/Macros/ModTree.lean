import TrilliumGrpc.Codegen.ProtoNames
import TrilliumGrpc.Data.SortedMap

/-! # The modules of a macro expansion

`build_tree` and `emit_tree` of `src/macros/src/lib.rs`, behind the file names that
`generate_from_descriptors` of `src/codegen/src/lib.rs` keys its output by. How Rust
source becomes tokens is a parameter.
-/

namespace TrilliumGrpc.Macros

open Codegen

/-! ## Module names -/

/-- The word behind `r#`. -/
def rawWord (s : String) : Option String := (s.toList.dropPrefix? ['r', '#']).map String.ofList

/-- A component of a module's name: an identifier, which may be raw. -/
def isSegment (s : String) : Bool := isIdentifier s || (rawWord s).any isIdentifier

/-- The words that Rust reserves. -/
def keywords : List String :=
  ["as", "async", "await", "break", "const", "continue", "crate", "dyn", "else", "enum", "extern",
    "false", "fn", "for", "if", "impl", "in", "let", "loop", "match", "mod", "move", "mut", "pub",
    "ref", "return", "self", "Self", "static", "struct", "super", "trait", "true", "type", "unsafe",
    "use", "where", "while", "abstract", "become", "box", "do", "final", "gen", "macro", "override",
    "priv", "try", "typeof", "unsized", "virtual", "yield"]

/-- What may stand behind `pub mod`. -/
def isModuleName (s : String) : Bool :=
  match rawWord s with
  | some word => isIdentifier word && word ∉ ["_", "crate", "self", "Self", "super"]
  | none => isIdentifier s && s ∉ "_" :: keywords

theorem dot_not_mem_identifier {s : String} (h : isIdentifier s = true) : '.' ∉ s.toList := by
  intro hdot
  exact absurd (mem_identifier h '.' hdot) (by decide)

theorem segment_chars {s : String} (h : isSegment s = true) : '.' ∉ s.toList ∧ s ≠ "" := by
  rcases Bool.or_eq_true_iff.mp h with hplain | hraw
  · exact ⟨dot_not_mem_identifier hplain, identifier_ne_empty hplain⟩
  · obtain ⟨word, hword, hident⟩ := (Option.any_eq_true _ _).mp hraw
    obtain ⟨cs, hcs, rfl⟩ := Option.map_eq_some_iff.mp hword
    obtain ⟨front, hchars, hfront⟩ := List.dropPrefix?_eq_some_iff.mp hcs
    rw [eq_of_beq hfront] at hchars
    have hrest := dot_not_mem_identifier hident
    rw [String.toList_ofList] at hrest
    refine ⟨?_, ?_⟩
    · rw [hchars]
      simpa using hrest
    · rintro rfl
      simp at hchars

/-! ## The files of a run -/

/-- What prost-build gives for one package: the components of its module, none for the
empty package, and source that is Rust. -/
structure Generated {τ : Type} (lex : String → Except String τ) where
  segments : List String
  words : ∀ s ∈ segments, isSegment s = true
  contents : String
  tokens : τ
  lexes : lex contents = .ok tokens

variable {τ : Type} {lex : String → Except String τ}

/-- `Module::to_file_name_or("_")`. -/
def fileName (segments : List String) : String :=
  (if segments = [] then "_" else dotted segments) ++ ".rs"

/-- `generate_from_descriptors`: one file a package. -/
def generatedFiles (outputs : List (Generated lex)) : List (String × String) :=
  outputs.foldl (fun files o => SortedMap.insert (fileName o.segments) o.contents files) []

/-- `Path::file_stem` of a path that is one component. -/
def fileStem (file : String) : Option String :=
  if file = "" ∨ file = "." ∨ file = ".." then none
  else
    match file.toList.reverse.dropWhile (fun c => c ≠ '.') with
    | '.' :: before => if before = [] then some file else some (String.ofList before.reverse)
    | _ => some file

/-! ## The tree -/

inductive ModTree where
  | node (children : List (String × ModTree)) (contents : Option String)

namespace ModTree

def empty : ModTree := .node [] none

/-- Walk to the node of a path, which is made as far as it is missing, and put the
contents there; `none` if it has some. -/
def place (content : String) : List String → ModTree → Option ModTree
  | [], .node children contents =>
      if contents.isSome then none else some (.node children (some content))
  | seg :: segs, .node children contents =>
      (place content segs ((children.lookup seg).getD empty)).map
        (fun child => .node (SortedMap.insert seg child children) contents)

end ModTree

def segmentsOf (stem : String) : List String := (stem.toList.splitOn '.').map String.ofList

def addFile (tree : ModTree) (file : String × String) : Except String ModTree :=
  match fileStem file.1 with
  | none => .error ("unexpected codegen output filename: " ++ file.1)
  | some stem =>
      match tree.place file.2 (segmentsOf stem) with
      | none => .error ("duplicate codegen output for package " ++ stem)
      | some tree => .ok tree

def buildTree (files : List (String × String)) : Except String ModTree :=
  files.foldlM addFile .empty

/-! ## The expansion -/

/-- Items of an expansion: the tokens of some source, or a module. -/
inductive RustItem (τ : Type) where
  | code (tokens : τ)
  | compileError (message : String)
  | pubMod (name : String) (items : List (RustItem τ))

def emitContents (lex : String → Except String τ) : Option String → List (RustItem τ)
  | none => []
  | some content =>
      match lex content with
      | .ok tokens => [.code tokens]
      | .error e => [.compileError e]

mutual

def emitTree (lex : String → Except String τ) : ModTree → List (RustItem τ)
  | .node children contents => emitContents lex contents ++ emitChildren lex children

def emitChildren (lex : String → Except String τ) : List (String × ModTree) → List (RustItem τ)
  | [] => []
  | (name, child) :: rest => .pubMod name (emitTree lex child) :: emitChildren lex rest

end

/-! ## What an expansion has where -/

mutual

/-- The code of an item, each piece with the modules around it. -/
def RustItem.places : RustItem τ → List (List String × τ)
  | .code tokens => [([], tokens)]
  | .compileError _ => []
  | .pubMod name items => (placesIn items).map (fun place => (name :: place.1, place.2))

def placesIn : List (RustItem τ) → List (List String × τ)
  | [] => []
  | item :: rest => item.places ++ placesIn rest

end

def moduleNames (items : List (RustItem τ)) : List String :=
  items.filterMap (fun item =>
    match item with
    | .pubMod name _ => some name
    | _ => none)

mutual

def RustItem.levels : RustItem τ → List (List String)
  | .pubMod _ items => moduleNames items :: levelsIn items
  | _ => []

def levelsIn : List (RustItem τ) → List (List String)
  | [] => []
  | item :: rest => item.levels ++ levelsIn rest

end

/-- The module names of an expansion, one list for each parent. -/
def levels (items : List (RustItem τ)) : List (List String) := moduleNames items :: levelsIn items

/-! ## The contents of a tree -/

namespace ModTree

mutual

def entries : ModTree → List (List String × String)
  | .node children contents => (contents.map (fun c => ([], c))).toList ++ entriesIn children

def entriesIn : List (String × ModTree) → List (List String × String)
  | [] => []
  | (name, child) :: rest =>
      child.entries.map (fun entry => (name :: entry.1, entry.2)) ++ entriesIn rest

end

/-- Every node's children are in order, and each has a name of the given kind. -/
inductive Named (P : String → Prop) : ModTree → Prop
  | node {children : List (String × ModTree)} {contents : Option String} :
      SortedMap.Sorted children → (∀ entry ∈ children, P entry.1) →
      (∀ entry ∈ children, Named P entry.2) → Named P (.node children contents)

def entriesUnder (seg : String) (child : ModTree) : List (List String × String) :=
  child.entries.map (fun entry => (seg :: entry.1, entry.2))

theorem entriesIn_append (front back : List (String × ModTree)) :
    entriesIn (front ++ back) = entriesIn front ++ entriesIn back := by
  induction front with
  | nil => rfl
  | cons entry rest ih =>
      obtain ⟨name, child⟩ := entry
      rw [List.cons_append, entriesIn, ih, entriesIn, List.append_assoc]

theorem entriesIn_middle (front back : List (String × ModTree)) (seg : String) (child : ModTree) :
    entriesIn (front ++ (seg, child) :: back) =
      entriesIn front ++ (entriesUnder seg child ++ entriesIn back) := by
  rw [entriesIn_append, entriesIn, entriesUnder]

theorem named_empty (P : String → Prop) : Named P empty :=
  .node SortedMap.sorted_nil (by simp) (by simp)

theorem child_spec {P : String → Prop} {children : List (String × ModTree)}
    (hsorted : SortedMap.Sorted children) (hchildren : ∀ entry ∈ children, Named P entry.2)
    (seg : String) (child' : ModTree) : Named P ((children.lookup seg).getD empty) ∧
      ∃ front back, SortedMap.insert seg child' children = front ++ (seg, child') :: back ∧
        entriesIn children = entriesIn front ++
          (entriesUnder seg ((children.lookup seg).getD empty) ++ entriesIn back) := by
  obtain ⟨front, back, hinsert, ⟨w, hw, hentries⟩ | ⟨hnone, hentries⟩⟩ :=
    SortedMap.insert_spec hsorted seg child'
  · rw [hw]
    refine ⟨hchildren _ (SortedMap.mem_of_lookup hw), front, back, hinsert, ?_⟩
    rw [hentries, entriesIn_middle]
    rfl
  · rw [hnone]
    refine ⟨named_empty P, front, back, hinsert, ?_⟩
    rw [hentries, entriesIn_append]
    rfl

theorem perm_inside {β : Type} (c f b : List β) {m m' : List β} {x : β} (h : m'.Perm (x :: m)) :
    (c ++ (f ++ (m' ++ b))).Perm (x :: (c ++ (f ++ (m ++ b)))) := by
  have hinner : (f ++ (m' ++ b)).Perm (x :: (f ++ (m ++ b))) :=
    ((h.append_right b).append_left f).trans List.perm_middle
  exact (hinner.append_left c).trans List.perm_middle

/-- A path that has no contents yet can be given some, and nothing else changes. The
induction is on the path; the child it goes to may be new. -/
theorem place_spec {P : String → Prop} (content : String) {path : List String}
    (hpath : ∀ seg ∈ path, P seg) {tree : ModTree} (htree : tree.Named P)
    (hnew : path ∉ tree.entries.map Prod.fst) :
    ∃ tree', tree.place content path = some tree' ∧ tree'.Named P ∧
      tree'.entries.Perm ((path, content) :: tree.entries) := by
  induction path generalizing tree with
  | nil =>
      obtain ⟨hsorted, hnames, hchildren⟩ := htree
      rename_i children contents
      cases contents with
      | some c => simp [entries] at hnew
      | none => exact ⟨_, rfl, .node hsorted hnames hchildren, List.Perm.refl _⟩
  | cons seg segs ih =>
      obtain ⟨hsorted, hnames, hchildren⟩ := htree
      rename_i children contents
      have hsegs : ∀ s ∈ segs, P s := fun s hs => hpath s (List.mem_cons_of_mem seg hs)
      have hchild := child_spec hsorted hchildren seg empty
      have hfresh : segs ∉ ((children.lookup seg).getD empty).entries.map Prod.fst := by
        obtain ⟨_, front, back, _, hentries⟩ := hchild
        intro hmem
        obtain ⟨entry, hentry, hsegs⟩ := List.mem_map.mp hmem
        refine hnew (List.mem_map.mpr ⟨(seg :: segs, entry.2), ?_, rfl⟩)
        rw [entries, hentries, entriesUnder, ← hsegs]
        simp [hentry]
      obtain ⟨child', hplace, hnamed, hperm⟩ := ih hsegs hchild.1 hfresh
      obtain ⟨_, front, back, hinsert, hentries⟩ := child_spec hsorted hchildren seg child'
      refine ⟨.node (SortedMap.insert seg child' children) contents, ?_, ?_, ?_⟩
      · rw [place, hplace, Option.map_some]
      · refine .node (hsorted.insert seg child') (fun entry hentry => ?_) (fun entry hentry => ?_)
        · rcases SortedMap.mem_insert hentry with rfl | hentry
          · exact hpath seg List.mem_cons_self
          · exact hnames entry hentry
        · rcases SortedMap.mem_insert hentry with rfl | hentry
          · exact hnamed
          · exact hchildren entry hentry
      · have hunder : (entriesUnder seg child').Perm ((seg :: segs, content) ::
            entriesUnder seg ((children.lookup seg).getD empty)) := hperm.map _
        rw [entries, entries, hinsert, entriesIn_middle, hentries]
        exact perm_inside _ _ _ hunder

end ModTree

/-! ## The expansion of a tree -/

theorem placesIn_append (xs ys : List (RustItem τ)) :
    placesIn (xs ++ ys) = placesIn xs ++ placesIn ys := by
  induction xs with
  | nil => rfl
  | cons item rest ih => rw [List.cons_append, placesIn, placesIn, ih, List.append_assoc]

theorem levelsIn_append (xs ys : List (RustItem τ)) :
    levelsIn (xs ++ ys) = levelsIn xs ++ levelsIn ys := by
  induction xs with
  | nil => rfl
  | cons item rest ih => rw [List.cons_append, levelsIn, levelsIn, ih, List.append_assoc]

def lexed (lex : String → Except String τ) (entry : List String × String) :
    Option (List String × τ) :=
  (lex entry.2).toOption.map (fun tokens => (entry.1, tokens))

theorem placesIn_emitContents (lex : String → Except String τ) (contents : Option String) :
    placesIn (emitContents lex contents) =
      (contents.map (fun c => ([], c))).toList.filterMap (lexed lex) := by
  cases contents with
  | none => rfl
  | some content =>
      simp only [emitContents, lexed, Option.map_some, Option.toList_some, List.filterMap_cons]
      cases lex content <;> rfl

theorem filterMap_lexed_under (lex : String → Except String τ) (name : String)
    (entries : List (List String × String)) :
    (entries.map (fun entry => (name :: entry.1, entry.2))).filterMap (lexed lex) =
      (entries.filterMap (lexed lex)).map (fun place => (name :: place.1, place.2)) := by
  rw [List.filterMap_map, List.map_filterMap]
  refine List.filterMap_congr (fun entry _ => ?_)
  simp only [lexed, Function.comp_apply]
  cases lex entry.2 <;> rfl

mutual

theorem placesIn_emitTree (lex : String → Except String τ) :
    ∀ tree : ModTree, placesIn (emitTree lex tree) = tree.entries.filterMap (lexed lex)
  | .node children contents => by
      rw [emitTree, placesIn_append, ModTree.entries, List.filterMap_append,
        placesIn_emitContents, placesIn_emitChildren lex children]

theorem placesIn_emitChildren (lex : String → Except String τ) :
    ∀ children, placesIn (emitChildren lex children) =
      (ModTree.entriesIn children).filterMap (lexed lex)
  | [] => rfl
  | (name, child) :: rest => by
      rw [emitChildren, placesIn, RustItem.places, placesIn_emitTree lex child,
        placesIn_emitChildren lex rest, ModTree.entriesIn, List.filterMap_append,
        filterMap_lexed_under]

end

theorem moduleNames_emitTree (lex : String → Except String τ)
    (children : List (String × ModTree)) (contents : Option String) :
    moduleNames (emitTree lex (.node children contents)) = children.map Prod.fst ∧
      levelsIn (emitTree lex (.node children contents)) = levelsIn (emitChildren lex children) := by
  have hcode : moduleNames (emitContents lex contents) = [] ∧
      levelsIn (emitContents lex contents) = [] := by
    cases contents with
    | none => exact ⟨rfl, rfl⟩
    | some content =>
        simp only [emitContents]
        cases lex content <;> exact ⟨rfl, rfl⟩
  have hchildren : moduleNames (emitChildren lex children) = children.map Prod.fst := by
    induction children with
    | nil => rfl
    | cons entry rest ih =>
        obtain ⟨name, child⟩ := entry
        rw [emitChildren, List.map_cons, ← ih]
        rfl
  constructor
  · rw [emitTree, moduleNames, List.filterMap_append, ← moduleNames, ← moduleNames, hcode.1,
      hchildren, List.nil_append]
  · rw [emitTree, levelsIn_append, hcode.2, List.nil_append]

theorem mem_levelsIn_emitChildren (lex : String → Except String τ) {names : List String} :
    ∀ {children : List (String × ModTree)}, names ∈ levelsIn (emitChildren lex children) →
      ∃ entry ∈ children, names ∈ levels (emitTree lex entry.2)
  | (name, child) :: rest, h => by
      rw [emitChildren, levelsIn, RustItem.levels] at h
      rcases List.mem_append.mp h with hhere | hlater
      · exact ⟨(name, child), List.mem_cons_self, hhere⟩
      · obtain ⟨entry, hentry, hnames⟩ := mem_levelsIn_emitChildren lex hlater
        exact ⟨entry, List.mem_cons_of_mem _ hentry, hnames⟩

theorem ModTree.Named.levels {P : String → Prop} {tree : ModTree} (h : tree.Named P)
    (lex : String → Except String τ) :
    ∀ names ∈ levels (emitTree lex tree), names.Nodup ∧ ∀ name ∈ names, P name := by
  induction h with
  | @node children contents hsorted hnames _ ih =>
      obtain ⟨hhere, hinside⟩ := moduleNames_emitTree lex children contents
      intro names hmem
      rw [Macros.levels, hhere, hinside] at hmem
      rcases List.mem_cons.mp hmem with rfl | hmem
      · refine ⟨hsorted.imp (fun hlt => hlt.ne), ?_⟩
        intro name hname
        obtain ⟨entry, hentry, rfl⟩ := List.mem_map.mp hname
        exact hnames entry hentry
      · obtain ⟨entry, hentry, hdeeper⟩ := mem_levelsIn_emitChildren lex hmem
        exact ih entry hentry names hdeeper

mutual

theorem RustItem.levels_of_place : ∀ item : RustItem τ, ∀ place ∈ item.places, ∀ s ∈ place.1,
    s ∈ moduleNames [item] ∨ ∃ names ∈ item.levels, s ∈ names
  | .code tokens, place, hplace, s, hs => by
      rw [RustItem.places, List.mem_singleton] at hplace
      subst hplace
      cases hs
  | .compileError message, place, hplace, s, hs => by cases hplace
  | .pubMod name items, place, hplace, s, hs => by
      rw [RustItem.places] at hplace
      obtain ⟨inner, hinner, rfl⟩ := List.mem_map.mp hplace
      rcases List.mem_cons.mp hs with rfl | hs
      · exact .inl List.mem_cons_self
      · exact .inr (levels_of_placesIn items inner hinner s hs)

theorem levels_of_placesIn : ∀ items : List (RustItem τ), ∀ place ∈ placesIn items,
    ∀ s ∈ place.1, ∃ names ∈ levels items, s ∈ names
  | [], place, hplace, s, hs => by cases hplace
  | item :: rest, place, hplace, s, hs => by
      rw [placesIn] at hplace
      rw [levels, levelsIn]
      have hnames : moduleNames (item :: rest) = moduleNames [item] ++ moduleNames rest :=
        List.filterMap_append (l := [item])
      rcases List.mem_append.mp hplace with hhere | hlater
      · rcases RustItem.levels_of_place item place hhere s hs with hname | ⟨names, hmem, hname⟩
        · refine ⟨_, List.mem_cons_self, ?_⟩
          rw [hnames]
          exact List.mem_append_left _ hname
        · exact ⟨names, List.mem_cons_of_mem _ (List.mem_append_left _ hmem), hname⟩
      · obtain ⟨names, hmem, hname⟩ := levels_of_placesIn rest place hlater s hs
        rcases List.mem_cons.mp hmem with rfl | hmem
        · refine ⟨_, List.mem_cons_self, ?_⟩
          rw [hnames]
          exact List.mem_append_right _ hname
        · exact ⟨names, List.mem_cons_of_mem _ (List.mem_append_right _ hmem), hname⟩

end

/-! ## The tree of a run's files -/

/-- Where `build_tree` puts the contents of a file. -/
def pathOf (file : String) : List String := ((fileStem file).map segmentsOf).getD []

theorem fileStem_rs {stem : String} (h : stem ≠ "") : fileStem (stem ++ ".rs") = some stem := by
  have hne : stem.toList ≠ [] := fun hnil => h (String.toList_eq_nil_iff.mp hnil)
  have hplain : ¬ (stem ++ ".rs" = "" ∨ stem ++ ".rs" = "." ∨ stem ++ ".rs" = "..") := by
    have hrs : ".rs".length = 3 := rfl
    have hone : ".".length = 1 := rfl
    have htwo : "..".length = 2 := rfl
    rintro (heq | heq | heq) <;> have hlength := congrArg String.length heq <;>
      simp only [String.length_append, String.length_empty] at hlength <;> omega
  have hreverse : (stem ++ ".rs").toList.reverse = 's' :: 'r' :: '.' :: stem.toList.reverse := by
    simp
  have hdrop : (stem ++ ".rs").toList.reverse.dropWhile (fun c => c ≠ '.') =
      '.' :: stem.toList.reverse := by
    rw [hreverse]
    rfl
  rw [fileStem, if_neg hplain, hdrop]
  simp [hne]

theorem segmentsOf_dotted {segments : List String} (hne : segments ≠ [])
    (h : ∀ segment ∈ segments, '.' ∉ segment.toList) : segmentsOf (dotted segments) = segments := by
  rw [segmentsOf, splitOn_dotted hne h, List.map_map]
  simp [Function.comp_def]

theorem segmentsOf_ne_nil (stem : String) : segmentsOf stem ≠ [] := by
  rw [segmentsOf]
  simp [List.splitOn_ne_nil]

theorem addFile_eq {tree : ModTree} {file : String × String} {stem : String}
    (hstem : fileStem file.1 = some stem) : addFile tree file =
      match tree.place file.2 (pathOf file.1) with
      | none => .error ("duplicate codegen output for package " ++ stem)
      | some tree => .ok tree := by
  have hpath : pathOf file.1 = segmentsOf stem := by rw [pathOf, hstem]; rfl
  simp only [addFile, hstem, hpath]

/-- Files with distinct paths are placed one after the other, each beside the others. -/
theorem foldlM_addFile {P : String → Prop} {files : List (String × String)}
    (hstems : ∀ file ∈ files, (fileStem file.1).isSome)
    (hpaths : ∀ file ∈ files, ∀ seg ∈ pathOf file.1, P seg)
    (hnodup : (files.map (fun file => pathOf file.1)).Nodup) {tree : ModTree}
    (htree : tree.Named P) (hnew : ∀ file ∈ files, pathOf file.1 ∉ tree.entries.map Prod.fst) :
    ∃ tree', files.foldlM addFile tree = .ok tree' ∧ tree'.Named P ∧
      tree'.entries.Perm (files.map (fun file => (pathOf file.1, file.2)) ++ tree.entries) := by
  induction files generalizing tree with
  | nil => exact ⟨tree, rfl, htree, List.Perm.refl _⟩
  | cons file rest ih =>
      obtain ⟨hhead, htail⟩ := List.nodup_cons.mp hnodup
      obtain ⟨stem, hstem⟩ := Option.isSome_iff_exists.mp (hstems file List.mem_cons_self)
      obtain ⟨tree₁, hplace, hnamed, hperm⟩ := ModTree.place_spec file.2
        (hpaths file List.mem_cons_self) htree (hnew file List.mem_cons_self)
      have hnew' : ∀ later ∈ rest, pathOf later.1 ∉ tree₁.entries.map Prod.fst := by
        intro later hlater hmem
        rcases List.mem_cons.mp ((hperm.map Prod.fst).mem_iff.mp hmem) with heq | hold
        · exact hhead (List.mem_map.mpr ⟨later, hlater, heq⟩)
        · exact hnew later (List.mem_cons_of_mem file hlater) hold
      obtain ⟨tree', hfold, hnamed', hperm'⟩ := ih
        (fun later hlater => hstems later (List.mem_cons_of_mem file hlater))
        (fun later hlater => hpaths later (List.mem_cons_of_mem file hlater)) htail hnamed hnew'
      refine ⟨tree', ?_, hnamed', ?_⟩
      · rw [List.foldlM_cons, addFile_eq hstem, hplace]
        exact hfold
      · exact hperm'.trans ((hperm.append_left _).trans List.perm_middle)

theorem entriesIn_path_ne_nil : ∀ {children : List (String × ModTree)},
    ∀ entry ∈ ModTree.entriesIn children, entry.1 ≠ []
  | (name, child) :: rest, entry, hentry => by
      rw [ModTree.entriesIn] at hentry
      rcases List.mem_append.mp hentry with hhere | hlater
      · obtain ⟨inner, _, rfl⟩ := List.mem_map.mp hhere
        exact List.cons_ne_nil _ _
      · exact entriesIn_path_ne_nil entry hlater

def ModTree.Bare : ModTree → Prop
  | .node _ contents => contents = none

theorem ModTree.Bare.path_ne_nil {tree : ModTree} (h : tree.Bare) :
    ∀ entry ∈ tree.entries, entry.1 ≠ [] := by
  obtain ⟨children, contents⟩ := tree
  have hnone : contents = none := h
  subst hnone
  exact fun entry hentry => entriesIn_path_ne_nil entry hentry

theorem ModTree.Bare.place {tree tree' : ModTree} (h : tree.Bare) {content : String}
    {path : List String} (hne : path ≠ []) (hplace : tree.place content path = some tree') :
    tree'.Bare := by
  obtain ⟨children, contents⟩ := tree
  cases path with
  | nil => exact absurd rfl hne
  | cons seg segs =>
      rw [ModTree.place] at hplace
      obtain ⟨child, _, rfl⟩ := Option.map_eq_some_iff.mp hplace
      exact h

/-- A stem has a segment, so no file's contents end up at the root. -/
theorem bare_of_foldlM {files : List (String × String)} {tree tree' : ModTree} (h : tree.Bare)
    (hfold : files.foldlM addFile tree = .ok tree') : tree'.Bare := by
  induction files generalizing tree with
  | nil =>
      cases hfold
      exact h
  | cons file rest ih =>
      rw [List.foldlM_cons] at hfold
      cases hstem : fileStem file.1 with
      | none =>
          rw [addFile, hstem] at hfold
          cases hfold
      | some stem =>
          rw [addFile, hstem] at hfold
          dsimp only at hfold
          cases hplace : tree.place file.2 (segmentsOf stem) with
          | none =>
              rw [hplace] at hfold
              cases hfold
          | some tree₁ =>
              rw [hplace] at hfold
              exact ih (h.place (segmentsOf_ne_nil stem) hplace) hfold

/-! ## Every package at its place -/

/-- Every output's code is emitted once, inside the modules its package names, with one
module of a name under each parent and a legal name for each. -/
structure PlacedAsNamed (outputs : List (Generated lex)) (items : List (RustItem τ)) : Prop where
  once : (placesIn items).Perm (outputs.map (fun o => (o.segments, o.tokens)))
  distinct : ∀ names ∈ levels items, names.Nodup
  legal : ∀ names ∈ levels items, ∀ name ∈ names, isModuleName name = true

theorem stem_ne_empty {segments : List String} (hne : segments ≠ [])
    (h : ∀ s ∈ segments, isSegment s = true) : dotted segments ≠ "" := by
  intro hempty
  have hsplit := segmentsOf_dotted hne (fun s hs => (segment_chars (h s hs)).1)
  rw [hempty] at hsplit
  have hfirst : "" ∈ segments := by
    rw [← hsplit]
    decide
  exact (segment_chars (h "" hfirst)).2 rfl

theorem pathOf_fileName {segments : List String} (hne : segments ≠ [])
    (h : ∀ s ∈ segments, isSegment s = true) :
    (fileStem (fileName segments)).isSome ∧ pathOf (fileName segments) = segments := by
  have hstem : fileStem (fileName segments) = some (dotted segments) := by
    rw [fileName, if_neg hne]
    exact fileStem_rs (stem_ne_empty hne h)
  refine ⟨by rw [hstem]; rfl, ?_⟩
  rw [pathOf, hstem]
  exact segmentsOf_dotted hne (fun s hs => (segment_chars (h s hs)).1)

theorem generatedFiles_perm {outputs : List (Generated lex)}
    (hdistinct : (outputs.map Generated.segments).Nodup) (hne : ∀ o ∈ outputs, o.segments ≠ []) :
    (generatedFiles outputs).Perm
      (outputs.map (fun o => (fileName o.segments, o.contents))) := by
  have hkeys : ((outputs.map (fun o => (fileName o.segments, o.contents))).map Prod.fst).Nodup := by
    rw [List.map_map]
    refine List.Nodup.of_map pathOf ?_
    rw [List.map_map]
    have hpaths : outputs.map (pathOf ∘ Prod.fst ∘ fun o => (fileName o.segments, o.contents)) =
        outputs.map Generated.segments :=
      List.map_congr_left (fun o ho => (pathOf_fileName (hne o ho) o.words).2)
    rw [hpaths]
    exact hdistinct
  have hfold := SortedMap.foldl_insert_perm SortedMap.sorted_nil hkeys
    (fun entry _ => List.not_mem_nil)
  rw [List.foldl_map, List.append_nil] at hfold
  exact hfold

/-- The tree of packages that are not empty has their contents and nothing else. -/
theorem buildTree_outputs {P : String → Prop} {outputs : List (Generated lex)}
    (hdistinct : (outputs.map Generated.segments).Nodup) (hne : ∀ o ∈ outputs, o.segments ≠ [])
    (hsegments : ∀ o ∈ outputs, ∀ s ∈ o.segments, P s) :
    ∃ tree, buildTree (generatedFiles outputs) = .ok tree ∧ tree.Named P ∧
      tree.entries.Perm (outputs.map (fun o => (o.segments, o.contents))) := by
  have hfiles := generatedFiles_perm hdistinct hne
  have hnames : ∀ file ∈ generatedFiles outputs, ∃ o ∈ outputs, file.1 = fileName o.segments := by
    intro file hfile
    obtain ⟨o, ho, rfl⟩ := List.mem_map.mp (hfiles.mem_iff.mp hfile)
    exact ⟨o, ho, rfl⟩
  have hentries : ((generatedFiles outputs).map (fun file => (pathOf file.1, file.2))).Perm
      (outputs.map (fun o => (o.segments, o.contents))) := by
    refine (hfiles.map _).trans (List.Perm.of_eq ?_)
    rw [List.map_map]
    refine List.map_congr_left (fun o ho => ?_)
    simp only [Function.comp_apply, (pathOf_fileName (hne o ho) o.words).2]
  have hnodup : ((generatedFiles outputs).map (fun file => pathOf file.1)).Nodup := by
    have hpaths := hentries.map Prod.fst
    rw [List.map_map, List.map_map] at hpaths
    exact hpaths.nodup_iff.mpr hdistinct
  have hstems : ∀ file ∈ generatedFiles outputs, (fileStem file.1).isSome := by
    intro file hfile
    obtain ⟨o, ho, hname⟩ := hnames file hfile
    rw [hname]
    exact (pathOf_fileName (hne o ho) o.words).1
  have hpaths : ∀ file ∈ generatedFiles outputs, ∀ seg ∈ pathOf file.1, P seg := by
    intro file hfile
    obtain ⟨o, ho, hname⟩ := hnames file hfile
    rw [hname, (pathOf_fileName (hne o ho) o.words).2]
    exact hsegments o ho
  obtain ⟨tree, hbuild, hnamed, hperm⟩ := foldlM_addFile hstems hpaths hnodup
    (ModTree.named_empty P) (fun file _ => List.not_mem_nil)
  refine ⟨tree, hbuild, hnamed, ?_⟩
  have hempty : ModTree.empty.entries = [] := rfl
  rw [hempty, List.append_nil] at hperm
  exact hperm.trans hentries

/-- An expansion puts every package where its name says exactly when none is empty and
every segment may name a module. -/
theorem packages_placed_iff (outputs : List (Generated lex))
    (hdistinct : (outputs.map Generated.segments).Nodup) :
    (∃ tree, buildTree (generatedFiles outputs) = .ok tree ∧
        PlacedAsNamed outputs (emitTree lex tree)) ↔
      ∀ o ∈ outputs, o.segments ≠ [] ∧ ∀ s ∈ o.segments, isModuleName s = true := by
  constructor
  · rintro ⟨tree, hbuild, hplaced⟩ o ho
    have hplace : (o.segments, o.tokens) ∈ placesIn (emitTree lex tree) :=
      hplaced.once.mem_iff.mpr (List.mem_map.mpr ⟨o, ho, rfl⟩)
    refine ⟨?_, ?_⟩
    · have hbare : tree.Bare := bare_of_foldlM (show ModTree.empty.Bare from rfl) hbuild
      rw [placesIn_emitTree] at hplace
      obtain ⟨entry, hentry, hlexed⟩ := List.mem_filterMap.mp hplace
      obtain ⟨tokens, _, heq⟩ := Option.map_eq_some_iff.mp hlexed
      have hpath : entry.1 = o.segments := congrArg Prod.fst heq
      rw [← hpath]
      exact hbare.path_ne_nil entry hentry
    · intro s hs
      obtain ⟨names, hnames, hname⟩ := levels_of_placesIn _ _ hplace s hs
      exact hplaced.legal names hnames s hname
  · intro h
    obtain ⟨tree, hbuild, hnamed, hperm⟩ := buildTree_outputs
      (P := fun s => isModuleName s = true) hdistinct (fun o ho => (h o ho).1)
      (fun o ho => (h o ho).2)
    have hlevels := hnamed.levels lex
    refine ⟨tree, hbuild, ?_, fun names hmem => (hlevels names hmem).1,
      fun names hmem => (hlevels names hmem).2⟩
    rw [placesIn_emitTree]
    refine (hperm.filterMap (lexed lex)).trans (List.Perm.of_eq ?_)
    rw [List.filterMap_map, ← List.filterMap_eq_map]
    refine List.filterMap_congr (fun o _ => ?_)
    simp only [Function.comp_apply, lexed, o.lexes]
    rfl

def oneToken (s : String) : Except String String := .ok s

/-- `demo` and `demo.v1`, one inside the other. -/
def nestedPackages : List (Generated oneToken) :=
  [{ segments := ["demo"], words := by decide, contents := "struct Ping;",
     tokens := "struct Ping;", lexes := rfl },
   { segments := ["demo", "v1"], words := by decide, contents := "struct Pong;",
     tokens := "struct Pong;", lexes := rfl }]

theorem nestedPackages_placed : ∃ tree, buildTree (generatedFiles nestedPackages) = .ok tree ∧
    PlacedAsNamed nestedPackages (emitTree oneToken tree) :=
  (packages_placed_iff nestedPackages (by decide)).mpr (by decide)

def noPackage : Generated oneToken :=
  { segments := [], words := by simp, contents := "struct Ping;",
    tokens := "struct Ping;", lexes := rfl }

/-- The empty package ends up in a module whose name is the `_` of its file. -/
theorem noPackage_misplaced :
    buildTree (generatedFiles [noPackage]) =
        .ok (.node [("_", .node [] (some "struct Ping;"))] none) ∧
      ¬ ∃ tree, buildTree (generatedFiles [noPackage]) = .ok tree ∧
        PlacedAsNamed [noPackage] (emitTree oneToken tree) := by
  refine ⟨rfl, ?_⟩
  rintro ⟨tree, hbuild, hplaced⟩
  cases hbuild
  have hlegal := hplaced.legal ["_"] List.mem_cons_self "_" List.mem_cons_self
  exact absurd hlegal (by decide)

end TrilliumGrpc.Macros
