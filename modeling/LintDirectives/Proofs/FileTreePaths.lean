import LintDirectives.FileTree
import LintDirectives.Proofs.TextSearch
import Mathlib.Data.List.Induction

/-!
# Paths in file trees

In a file tree each place is there once, below directories and under names that a path can hold. So
a path that leads to a directory leads, with the names of anything below that directory behind it, to
just that, unless the longer path is longer than a path may be.
-/

namespace LintDirectives

structure IsName (name : Text) : Prop where
  nonempty : name ≠ []
  noSlash : '/' ∉ name
  noZero : '\x00' ∉ name
  noDot : name ≠ ['.']
  noDots : name ≠ ['.', '.']
  short : (Text.utf8 name).length ≤ FileTree.nameLimit

/-- A file tree as it can be: each place once, in a directory, and with names that are names. -/
structure FileTree.WellFormed (tree : FileTree) : Prop where
  nodup : (KeyedList.keys tree).Nodup
  inDirectory : ∀ place ∈ KeyedList.keys tree,
    place ≠ [] ∧ tree.node? place.dropLast = some .directory
  names : ∀ place ∈ KeyedList.keys tree, ∀ name ∈ place, IsName name

instance (name : Text) : Decidable (IsName name) :=
  decidable_of_iff (name ≠ [] ∧ '/' ∉ name ∧ '\x00' ∉ name ∧ name ≠ ['.'] ∧ name ≠ ['.', '.'] ∧
      (Text.utf8 name).length ≤ FileTree.nameLimit)
    ⟨fun ⟨h₁, h₂, h₃, h₄, h₅, h₆⟩ => ⟨h₁, h₂, h₃, h₄, h₅, h₆⟩,
      fun ⟨h₁, h₂, h₃, h₄, h₅, h₆⟩ => ⟨h₁, h₂, h₃, h₄, h₅, h₆⟩⟩

instance (tree : FileTree) : Decidable tree.WellFormed :=
  decidable_of_iff ((KeyedList.keys tree).Nodup ∧
      (∀ place ∈ KeyedList.keys tree, place ≠ [] ∧ tree.node? place.dropLast = some .directory) ∧
      ∀ place ∈ KeyedList.keys tree, ∀ name ∈ place, IsName name)
    ⟨fun ⟨h₁, h₂, h₃⟩ => ⟨h₁, h₂, h₃⟩, fun ⟨h₁, h₂, h₃⟩ => ⟨h₁, h₂, h₃⟩⟩

/-! ## The text of a path -/

namespace Text

theorem join_eq_intercalate (mark : Text) (parts : List Text) :
    join mark parts = mark.intercalate parts := rfl

theorem mem_join {mark : Text} {c : Char} (hc : c ∉ mark) {parts : List Text} :
    c ∈ join mark parts ↔ ∃ part ∈ parts, c ∈ part := by
  induction parts with
  | nil => simp
  | cons part rest ih =>
    cases rest with
    | nil => simp
    | cons next rest => simp [join_cons_cons, hc, ih]

end Text

theorem PathRoot.ofText_append {t : Text} (h : t.head? ≠ some '/') (root : PathRoot) :
    ofText (root.text ++ t) = root := by
  cases t with
  | nil => cases root <;> rfl
  | cons c rest =>
    have hc : c ≠ '/' := by simpa using h
    cases root <;> simp [ofText, text, hc]

namespace FilePath

variable {p q : FilePath} {t : Text}

/-- The names of a path in its plain form are neither empty nor single dots, and no slash divides
them. -/
def IsPlain (p : FilePath) : Prop :=
  ∀ part ∈ p.parts, part ≠ [] ∧ part ≠ ['.'] ∧ '/' ∉ part

theorem isPlain_ofText (t : Text) : (ofText t).IsPlain := by
  intro part hpart
  obtain ⟨hmem, hne⟩ := List.mem_filter.mp hpart
  rw [Bool.and_eq_true, bne_iff_ne, bne_iff_ne] at hne
  exact ⟨hne.1, hne.2, (Text.infix_of_mem_splitOn hmem).2⟩

theorem IsPlain.below (h : p.IsPlain) {names : List Text} (hnames : ∀ name ∈ names, IsName name) :
    (p.below names).IsPlain := by
  intro part hpart
  rcases List.mem_append.mp hpart with hpart | hpart
  · exact h part hpart
  · exact ⟨(hnames part hpart).nonempty, (hnames part hpart).noDot, (hnames part hpart).noSlash⟩

/-- Behind its root, a path does not start with a slash. -/
theorem IsPlain.head?_join_ne (h : p.IsPlain) : (Text.join ['/'] p.parts).head? ≠ some '/' := by
  obtain ⟨root, parts⟩ := p
  cases parts with
  | nil => simp
  | cons part rest =>
    obtain ⟨hne, -, hslash⟩ := h part List.mem_cons_self
    obtain ⟨c, part, rfl⟩ := List.exists_cons_of_ne_nil hne
    have hc : c ≠ '/' := fun h => hslash (h ▸ List.mem_cons_self)
    cases rest with
    | nil => simpa using hc
    | cons next rest => simpa [Text.join_cons_cons] using hc

/-- A path from the root, and no other, is written with a slash at its start. -/
theorem IsPlain.head_text (h : p.IsPlain) :
    (p.text.head? == some '/') = (p.root != .working) := by
  obtain ⟨root, parts⟩ := p
  cases root with
  | single => rfl
  | double => rfl
  | working =>
    have hhead := h.head?_join_ne
    cases parts with
    | nil => rfl
    | cons part rest => simpa [text, PathRoot.text] using hhead

theorem IsPlain.filter_splitOn (h : p.IsPlain) (hne : p.parts ≠ []) :
    ((Text.join ['/'] p.parts).splitOn '/').filter (fun part => part != [] && part != ['.']) =
      p.parts := by
  rw [Text.join_eq_intercalate, List.splitOn_intercalate _ (fun part hpart => (h part hpart).2.2) hne]
  exact List.filter_eq_self.mpr fun part hpart => by
    simp [(h part hpart).1, (h part hpart).2.1]

/-- A path in its plain form is read back from its text. -/
theorem IsPlain.ofText_text (h : p.IsPlain) : ofText p.text = p := by
  by_cases hne : p.parts = []
  · obtain ⟨root, parts⟩ := p
    obtain rfl : parts = [] := hne
    cases root <;> decide
  · have htext : p.text = p.root.text ++ Text.join ['/'] p.parts := by simp [text, hne]
    have hparts : ((p.root.text ++ Text.join ['/'] p.parts).splitOn '/').filter
        (fun part => part != [] && part != ['.']) = p.parts := by
      have hslash (t : Text) : ('/' :: t).splitOn '/' = [] :: t.splitOn '/' := by
        simpa using List.splitOn_append_cons_self (a := '/') [] t
      cases p.root <;> simp [PathRoot.text, hslash, h.filter_splitOn hne]
    rw [htext, ofText, hparts, PathRoot.ofText_append h.head?_join_ne]

theorem IsPlain.text_injective (hp : p.IsPlain) (hq : q.IsPlain) (h : p.text = q.text) : p = q := by
  rw [← hp.ofText_text, h, hq.ofText_text]

theorem zero_mem_text (p : FilePath) :
    '\x00' ∈ p.text ↔ ∃ part ∈ p.parts, '\x00' ∈ part := by
  have hjoin : '\x00' ∈ Text.join ['/'] p.parts ↔ ∃ part ∈ p.parts, '\x00' ∈ part :=
    Text.mem_join (by decide)
  rw [← hjoin, text]
  cases p.root <;> cases p.parts <;> simp [PathRoot.text]

end FilePath

namespace FileTree

variable {tree : FileTree} {start place : Place} {p : FilePath} {names : List Text}

theorem mem_keys_of_node? (h : (tree.node? place).isSome) (hne : place ≠ []) :
    place ∈ KeyedList.keys tree := by
  rw [node?, if_neg (by simpa using hne)] at h
  exact (KeyedList.get?_isSome_iff place tree).mp h

/-! ## The way to a place -/

/-- Above anything in a file tree there are only directories. -/
theorem WellFormed.directory_of_isPrefix (htree : tree.WellFormed) {above : Place}
    (h : (tree.node? place).isSome) (habove : above <+: place) (hne : above ≠ place) :
    tree.node? above = some .directory := by
  -- Each place stands in a directory, the one before its last name.
  induction place using List.reverseRecOn with
  | nil => exact absurd (List.prefix_nil.mp habove) hne
  | append_singleton place name ih =>
    have hmem := mem_keys_of_node? h (by simp)
    have hparent : tree.node? place = some .directory := by
      simpa using (htree.inDirectory _ hmem).2
    rcases List.prefix_concat_iff.mp habove with rfl | habove
    · exact absurd rfl hne
    · by_cases heq : above = place
      · exact heq ▸ hparent
      · exact ih (by rw [hparent]; rfl) habove heq

theorem walk_append {parts parts' : List Text} {place' : Place}
    (h : tree.walk place parts = .ok place') :
    tree.walk place (parts ++ parts') = tree.walk place' parts' := by
  induction parts generalizing place with
  | nil => rw [Except.ok.inj h, List.nil_append]
  | cons part rest ih =>
    rw [walk] at h
    rw [List.cons_append, walk]
    split at h
    · split_ifs at h ⊢ with hdot hdots hlong
      · exact ih h
      · exact ih h
      · exact ih h
    · exact nomatch h
    · exact nomatch h

/-- The names of what is below a place lead there from it. -/
theorem WellFormed.walk_below (htree : tree.WellFormed) (h : (tree.node? (place ++ names)).isSome) :
    tree.walk place names = .ok (place ++ names) := by
  induction names generalizing place with
  | nil => rw [walk, List.append_nil]
  | cons name rest ih =>
    have hname : IsName name :=
      htree.names _ (mem_keys_of_node? h (by simp)) name (by simp)
    have hplace : tree.node? place = some .directory :=
      htree.directory_of_isPrefix h (List.prefix_append _ _) (by simp)
    have hrest : place ++ name :: rest = (place ++ [name]) ++ rest := by simp
    rw [walk, hplace]
    dsimp only
    rw [if_neg (by simpa using hname.noDot), if_neg (by simpa using hname.noDots),
      if_neg (Nat.not_lt.mpr hname.short), hrest]
    exact ih (hrest ▸ h)

/-- A path with the names of something below its end leads to that. -/
theorem WellFormed.locate_below (htree : tree.WellFormed) (hplain : p.IsPlain)
    (hp : tree.locate start p = .ok place) (h : (tree.node? (place ++ names)).isSome)
    (hshort : (Text.utf8 (p.below names).text).length ≤ pathLimit) :
    tree.locate start (p.below names) = .ok (place ++ names) := by
  by_cases hne : names = []
  · subst hne
    simpa [FilePath.below] using hp
  · have hnames : ∀ name ∈ names, IsName name := fun name hname =>
      htree.names _ (mem_keys_of_node? h (by simp [hne])) name (List.mem_append_right _ hname)
    rw [locate, follow, hplain.head_text] at hp
    rw [locate, follow, (hplain.below hnames).head_text]
    split at hp
    · exact nomatch hp
    · next hzero =>
      split at hp
      · exact nomatch hp
      · have hzero' : ¬(p.below names).text.contains '\x00' := by
          rw [List.contains_iff_mem, FilePath.zero_mem_text] at hzero ⊢
          rintro ⟨part, hpart, hin⟩
          rcases List.mem_append.mp hpart with hpart | hpart
          · exact hzero ⟨part, hpart, hin⟩
          · exact (hnames part hpart).noZero hin
        rw [if_neg hzero', if_neg (Nat.not_lt.mpr hshort)]
        exact (walk_append hp).trans (htree.walk_below h)

end FileTree

end LintDirectives
