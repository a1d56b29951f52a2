import CubeSandbox.GoText

/-!
Paths of Go's `path/filepath`, and where they lead.

`clean` and `join` work on the text alone. `lead` is the list of names a path leads to from a
working directory, when no name on the way is a symbolic link.
-/

namespace CubeSandbox.GoPath

open GoText List

def slash : UInt8 := 47

def dot : Bytes := [46]

def dotDot : Bytes := [46, 46]

/-- A name that an entry of a directory can have. -/
structure IsName (c : Bytes) : Prop where
  ne_nil : c ≠ []
  ne_dot : c ≠ dot
  ne_dotDot : c ≠ dotDot
  flat : slash ∉ c

instance (c : Bytes) : Decidable (IsName c) :=
  decidable_of_iff (c ≠ [] ∧ c ≠ dot ∧ c ≠ dotDot ∧ slash ∉ c)
    ⟨fun ⟨h1, h2, h3, h4⟩ => ⟨h1, h2, h3, h4⟩, fun h => ⟨h.ne_nil, h.ne_dot, h.ne_dotDot, h.flat⟩⟩

def isAbs (p : Bytes) : Bool := p.head? == some slash

def split (p : Bytes) : List Bytes := p.splitOn slash

/-- One more component after those that are already clean. -/
def push (rooted : Bool) (out : List Bytes) (c : Bytes) : List Bytes :=
  if c = [] ∨ c = dot then out
  else if c = dotDot then
    match out.getLast? with
    | some d => if d = dotDot then out ++ [dotDot] else out.dropLast
    | none => if rooted then [] else [dotDot]
  else out ++ [c]

def parts (p : Bytes) : List Bytes := (split p).foldl (push (isAbs p)) []

def render (rooted : Bool) (cs : List Bytes) : Bytes :=
  if rooted then slash :: [slash].intercalate cs
  else if cs = [] then dot
  else [slash].intercalate cs

/-- `filepath.Clean`. -/
def clean (p : Bytes) : Bytes := render (isAbs p) (parts p)

/-- `filepath.Join`: empty elements at the front are skipped. -/
def join (elem : List Bytes) : Bytes :=
  match elem.dropWhile fun e => e == [] with
  | [] => []
  | es => clean ([slash].intercalate es)

/-- `strings.Contains`. -/
def contains (s sub : Bytes) : Bool := s.tails.any fun t => sub.isPrefixOf t

/-! ### Names -/

abbrev Path := List Bytes

def enter (here : Path) (c : Bytes) : Path :=
  if c = [] ∨ c = dot then here
  else if c = dotDot then here.dropLast
  else here ++ [c]

def leadFrom (here : Path) (cs : List Bytes) : Path := cs.foldl enter here

/-- Where a path leads from the working directory. -/
def lead (cwd : Path) (p : Bytes) : Path := leadFrom (if isAbs p then [] else cwd) (split p)

variable {c d p s x : Bytes} {out : List Bytes} {r : Bool}

/-- The components that `push` keeps. -/
def Kept (out : List Bytes) : Prop := ∀ c ∈ out, c ≠ [] ∧ c ≠ dot ∧ slash ∉ c

lemma Kept.nil : Kept [] := by simp [Kept]

lemma Kept.snoc (h : Kept out) (h1 : c ≠ []) (h2 : c ≠ dot) (h3 : slash ∉ c) :
    Kept (out ++ [c]) := by
  intro d hd
  rcases mem_append.1 hd with hd | hd
  · exact h d hd
  · rw [mem_singleton.1 hd]
    exact ⟨h1, h2, h3⟩

lemma Kept.dropLast (h : Kept out) : Kept out.dropLast :=
  fun c hc => h c (mem_of_mem_dropLast hc)

lemma Kept.push (h : Kept out) (r : Bool) (hc : slash ∉ c) : Kept (push r out c) := by
  have hup : dotDot ≠ [] ∧ dotDot ≠ dot ∧ slash ∉ dotDot := by decide
  unfold GoPath.push
  by_cases h1 : c = [] ∨ c = dot
  · rwa [if_pos h1]
  rw [if_neg h1]
  by_cases h2 : c = dotDot
  · rw [if_pos h2]
    split
    · split_ifs
      · exact h.snoc hup.1 hup.2.1 hup.2.2
      · exact h.dropLast
    split_ifs
    · exact Kept.nil
    · exact Kept.nil.snoc hup.1 hup.2.1 hup.2.2
  · rw [if_neg h2]
    exact h.snoc (fun e => h1 (.inl e)) (fun e => h1 (.inr e)) hc

lemma kept_foldl (cs : List Bytes) (hcs : ∀ c ∈ cs, slash ∉ c) (hk : Kept out) :
    Kept (cs.foldl (push r) out) := by
  induction cs generalizing out with
  | nil => exact hk
  | cons c cs ih =>
    exact ih (fun d hd => hcs d (by simp [hd])) (hk.push r (hcs c (by simp)))

lemma split_flat (hc : c ∈ split p) : slash ∉ c := by
  unfold split at hc
  induction p generalizing c with
  | nil =>
    simp only [splitOn_nil, mem_singleton] at hc
    simp [hc]
  | cons b p ih =>
    rw [splitOn_cons_eq_if_modifyHead] at hc
    split_ifs at hc with hb
    · rcases mem_cons.1 hc with rfl | hc
      · simp
      · exact ih hc
    obtain ⟨d, ds, hds⟩ := exists_cons_of_ne_nil (splitOn_ne_nil slash p)
    rw [hds, modifyHead_cons] at hc
    rcases mem_cons.1 hc with rfl | hc
    · have hd := ih (c := d) (by simp [hds])
      have hne : slash ≠ b := fun e => hb (by simp [e])
      simpa [hne] using hd
    · exact ih (by simp [hds, hc])

lemma kept_parts (p : Bytes) : Kept (parts p) :=
  kept_foldl (split p) (fun _ hc => split_flat hc) Kept.nil

lemma isAbs_clean (p : Bytes) : isAbs (clean p) = isAbs p := by
  have hkept := kept_parts p
  unfold clean render
  cases isAbs p with
  | true => rfl
  | false =>
    cases hparts : parts p with
    | nil => rfl
    | cons c cs =>
      rw [hparts] at hkept
      obtain ⟨hne, -, hflat⟩ := hkept c (by simp)
      obtain ⟨b, c, rfl⟩ := exists_cons_of_ne_nil hne
      have hb : b ≠ slash := fun e => hflat (by simp [e])
      cases cs <;> simp [isAbs, intercalate_cons_cons, hb]

lemma isAbs_append {q : Bytes} (hp : p ≠ []) : isAbs (p ++ q) = isAbs p := by
  obtain ⟨b, p, rfl⟩ := exists_cons_of_ne_nil hp
  rfl

lemma join_ne_nil (hp : p ≠ []) (es : List Bytes) :
    join (p :: es) = clean ([slash].intercalate (p :: es)) := by
  simp [join, hp]

/-! ### Clean text -/

/-- Cleaning once more changes nothing. -/
def Normal (r : Bool) (cs : List Bytes) : Prop := cs.foldl (push r) [] = cs

lemma push_name (r : Bool) (out : List Bytes) (hc : IsName c) : push r out c = out ++ [c] := by
  simp [push, hc.ne_nil, hc.ne_dot, hc.ne_dotDot]

lemma Normal.snoc (h : Normal r out) (hc : push r out c = out ++ [c]) : Normal r (out ++ [c]) := by
  rwa [Normal, foldl_append, h]

lemma Normal.push (h : Normal r out) (hk : Kept out) (hc : slash ∉ c) :
    Normal r (push r out c) := by
  by_cases h1 : c = [] ∨ c = dot
  · rwa [GoPath.push, if_pos h1]
  by_cases h2 : c = dotDot
  · subst h2
    rw [GoPath.push, if_neg h1, if_pos rfl]
    cases hl : out.getLast? with
    | none => cases r <;> rfl
    | some d =>
      obtain ⟨init, rfl⟩ := getLast?_eq_some_iff.1 hl
      by_cases hd : d = dotDot
      · simp only [if_pos hd]
        refine h.snoc ?_
        simp [GoPath.push, h1, hd]
      have hd' := hk d (by simp)
      rw [Normal, foldl_append, foldl_cons, foldl_nil,
        push_name _ _ ⟨hd'.1, hd'.2.1, hd, hd'.2.2⟩] at h
      simp only [if_neg hd, dropLast_concat]
      exact (append_inj_left' h rfl)
  · have hname : IsName c := ⟨fun e => h1 (.inl e), fun e => h1 (.inr e), h2, hc⟩
    rw [push_name _ _ hname]
    exact h.snoc (push_name _ _ hname)

lemma normal_foldl (cs : List Bytes) (hcs : ∀ c ∈ cs, slash ∉ c) (hk : Kept out)
    (h : Normal r out) :
    Normal r (cs.foldl (push r) out) := by
  induction cs generalizing out with
  | nil => exact h
  | cons c cs ih =>
    have hc := hcs c (by simp)
    exact ih (fun d hd => hcs d (by simp [hd])) (hk.push r hc) (h.push hk hc)

lemma normal_parts (p : Bytes) : Normal (isAbs p) (parts p) :=
  normal_foldl (split p) (fun _ hc => split_flat hc) Kept.nil rfl

lemma parts_slash_name (hp : p ≠ []) (hc : IsName c) :
    parts (p ++ slash :: c) = parts p ++ [c] := by
  rw [parts, split, splitOn_append_cons_self, splitOn_eq_singleton hc.flat,
    isAbs_append hp, foldl_append, foldl_cons, foldl_nil, push_name _ _ hc]
  rfl

lemma intercalate_snoc {cs : List Bytes} (h : cs ≠ []) (c : Bytes) :
    [slash].intercalate (cs ++ [c]) = [slash].intercalate cs ++ slash :: c := by
  induction cs with
  | nil => exact absurd rfl h
  | cons d cs ih =>
    cases cs with
    | nil => simp [intercalate_cons_cons]
    | cons e cs =>
      have hne : (e :: cs) ++ [c] ≠ [] := by simp
      rw [cons_append, intercalate_cons_of_ne_nil hne, ih (by simp), intercalate_cons_cons]
      simp

lemma render_snoc {cs : List Bytes} (h : cs ≠ []) (c : Bytes) :
    render r (cs ++ [c]) = render r cs ++ slash :: c := by
  cases r <;> simp [render, h, intercalate_snoc h]

lemma parts_clean (p : Bytes) : parts (clean p) = parts p := by
  have hsplit : parts p ≠ [] → split ([slash].intercalate (parts p)) = parts p :=
    splitOn_intercalate slash fun c hc => (kept_parts p c hc).2.2
  have hroot (x : Bytes) : split (slash :: x) = [] :: split x :=
    splitOn_append_cons_self [] x
  have hnormal := normal_parts p
  rw [parts, isAbs_clean, clean, render]
  cases hp : parts p with
  | nil => cases isAbs p <;> rfl
  | cons c cs =>
    rw [hp] at hsplit hnormal
    cases habs : isAbs p with
    | true =>
      rw [habs] at hnormal
      rwa [if_pos rfl, hroot, hsplit (by simp), foldl_cons]
    | false =>
      rw [habs] at hnormal
      rwa [if_neg (by simp), if_neg (by simp), hsplit (by simp)]

lemma clean_ne_nil (p : Bytes) : clean p ≠ [] := by
  intro h
  have habs := isAbs_clean p
  have hparts := parts_clean p
  rw [h] at habs hparts
  have hrender : clean p = render false [] := by
    rw [clean, ← habs, ← hparts]
    rfl
  rw [h] at hrender
  exact absurd hrender (by decide)

/-- A directory whose text is clean and ends in a name. -/
structure CleanDir (d : Bytes) : Prop where
  clean_eq : clean d = d
  parts_ne : parts d ≠ []

lemma CleanDir.ne_nil (h : CleanDir d) : d ≠ [] := h.clean_eq ▸ clean_ne_nil d

section

variable (h : CleanDir d)
include h

lemma CleanDir.clean_slash (hc : IsName c) : clean (d ++ slash :: c) = d ++ slash :: c := by
  rw [clean, isAbs_append h.ne_nil, parts_slash_name h.ne_nil hc, render_snoc h.parts_ne]
  conv_rhs => rw [← h.clean_eq]
  rfl

lemma CleanDir.join (hc : IsName c) : join [d, c] = d ++ slash :: c := by
  rw [join_ne_nil h.ne_nil]
  simpa [intercalate_cons_cons] using h.clean_slash hc

end

/-! ### White space around a path -/

lemma white_words : ∀ w ∈ whiteSpace, w ≠ [] ∧ slash ∉ w := by decide

lemma white_words_reverse : ∀ w ∈ whiteSpace.map reverse, w ≠ [] ∧ slash ∉ w := by decide

section
variable {words : List Bytes} (hw : ∀ w ∈ words, w ≠ [] ∧ slash ∉ w)

def Stripped (words : List Bytes) (s : Bytes) : Prop := ∀ w ∈ words, ¬ w <+: s

instance (words : List Bytes) (s : Bytes) : Decidable (Stripped words s) :=
  inferInstanceAs (Decidable (∀ w ∈ words, ¬ w <+: s))

lemma Stripped.stripWords (h : Stripped words s) (n : Nat) : stripWords words n s = s := by
  cases n with
  | zero => rfl
  | succ n =>
    have hnone : (words.find? fun w => w.isPrefixOf s) = none :=
      find?_eq_none.2 fun w hmem hpre => h w hmem (List.isPrefixOf_iff_prefix.1 hpre)
    simp only [GoText.stripWords, hnone]

lemma prefix_of_slash {w y : Bytes} (hs : slash ∉ w) (h : w <+: x ++ slash :: y) : w <+: x := by
  obtain ⟨t, ht⟩ := h
  rcases append_eq_append_iff.1 ht with ⟨u, hu, -⟩ | ⟨u, hu, hu'⟩
  · exact ⟨u, hu.symm⟩
  cases u with
  | nil => exact ⟨[], by simpa using hu⟩
  | cons b u =>
    have hb : slash = b := (cons.inj hu').1
    exact absurd (by simp [hu, hb]) hs

include hw in
lemma Stripped.slash (h : Stripped words x) (y : Bytes) : Stripped words (x ++ slash :: y) :=
  fun w hmem hpre => h w hmem (prefix_of_slash (hw w hmem).2 hpre)

include hw in
lemma stripWords_slash (n m : Nat) (y : Bytes) (hn : x.length ≤ n) (hm : x.length ≤ m) :
    stripWords words n (x ++ slash :: y) = stripWords words m x ++ slash :: y := by
  induction n generalizing x m with
  | zero =>
    have hx : x = [] := length_eq_zero_iff.1 (Nat.le_zero.1 hn)
    have hstrip : Stripped words x := by
      intro w hmem hpre
      rw [hx, prefix_nil] at hpre
      exact (hw w hmem).1 hpre
    rw [hstrip.stripWords]
    rfl
  | succ n ih =>
    cases hfind : words.find? fun w => w.isPrefixOf x with
    | none =>
      have hstrip : Stripped words x := fun w hmem hpre =>
        find?_eq_none.1 hfind w hmem (List.isPrefixOf_iff_prefix.2 hpre)
      rw [hstrip.stripWords, (hstrip.slash hw y).stripWords]
    | some w =>
      -- the first word at the front of the whole is the first one at the front of `x`
      have hsame : (words.find? fun w => w.isPrefixOf (x ++ slash :: y)) = some w := by
        rw [← hfind]
        refine find?_congr fun v hv => ?_
        rw [Bool.eq_iff_iff, isPrefixOf_iff_prefix, isPrefixOf_iff_prefix]
        exact ⟨prefix_of_slash (hw v hv).2, fun h => h.trans (prefix_append _ _)⟩
      have hpre : w <+: x := isPrefixOf_iff_prefix.1 (by simpa using find?_some hfind)
      have hpos := length_pos_iff.2 (hw w (mem_of_find?_eq_some hfind)).1
      have hle := hpre.length_le
      obtain ⟨m, rfl⟩ : ∃ k, m = k + 1 := ⟨m - 1, by omega⟩
      simp only [stripWords, hsame, hfind]
      rw [drop_append_of_le_length hle]
      exact ih m (by rw [length_drop]; omega) (by rw [length_drop]; omega)

end

structure Trimmed (s : Bytes) : Prop where
  left : Stripped whiteSpace s
  right : Stripped (whiteSpace.map reverse) s.reverse

def trimLeft (s : Bytes) : Bytes := stripWords whiteSpace s.length s

lemma Trimmed.trimSpace_eq (h : Trimmed s) : trimSpace s = s := by
  simp only [trimSpace, h.left.stripWords, h.right.stripWords, reverse_reverse]

lemma trimSpace_slash (x : Bytes) (hc : Trimmed c) :
    trimSpace (x ++ slash :: c) = trimLeft x ++ slash :: c := by
  have hleft : stripWords whiteSpace (x ++ slash :: c).length (x ++ slash :: c) =
      trimLeft x ++ slash :: c :=
    stripWords_slash white_words _ _ c (by simp) (le_refl _)
  have hright : Stripped (whiteSpace.map reverse) (trimLeft x ++ slash :: c).reverse := by
    have h := hc.right.slash white_words_reverse (trimLeft x).reverse
    simpa using h
  simp only [trimSpace, hleft, hright.stripWords, reverse_reverse]

end CubeSandbox.GoPath
