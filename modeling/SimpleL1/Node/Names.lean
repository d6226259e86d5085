import SimpleL1.Node.Platform
import Mathlib.Data.List.Chain
import Mathlib.Data.List.TakeWhile

/-!
# Names of identities

`normalizeAlias` brings what a user typed to the one form under which names are
compared: lower-case letters, digits and single hyphens, with the suffix of the
network. A name in that form is its own normal form.
-/

namespace SimpleL1.Node

open SimpleL1.Js

/-! ## Labels -/

def isLowerLetter (c : Char) : Bool := 'a' ≤ c && c ≤ 'z'

/-- `[a-z0-9-]`. -/
def isLabelChar (c : Char) : Bool := isLowerLetter c || c.isDigit || c == '-'

/-- A character of a name in normal form. -/
def isNameChar (c : Char) : Bool := isLabelChar c || c == '.'

/-- The platform maps Unicode text; the characters of names in normal form it leaves alone. -/
structure NamePlatform extends Platform where
  /-- `normalize('NFKC')`. -/
  nfkc : String → String
  lower_name : ∀ s, (∀ c ∈ s.toList, isNameChar c = true) → lower s = s
  nfkc_name : ∀ s, (∀ c ∈ s.toList, isNameChar c = true) → nfkc s = s

def CYRILLIC_TRANSLITERATION : List (Char × String) :=
  [('а', "a"), ('б', "b"), ('в', "v"), ('г', "g"), ('д', "d"), ('е', "e"), ('ё', "yo"), ('ж', "zh"),
    ('з', "z"), ('и', "i"), ('й', "y"), ('к', "k"), ('л', "l"), ('м', "m"), ('н', "n"), ('о', "o"),
    ('п', "p"), ('р', "r"), ('с', "s"), ('т', "t"), ('у', "u"), ('ф', "f"), ('х', "kh"), ('ц', "ts"),
    ('ч', "ch"), ('ш', "sh"), ('щ', "shch"), ('ъ', ""), ('ы', "y"), ('ь', ""), ('э', "e"),
    ('ю', "yu"), ('я', "ya")]

def transliterateCyrillic (cs : List Char) : List Char :=
  cs.flatMap fun c => ((CYRILLIC_TRANSLITERATION.lookup c).map String.toList).getD [c]

/-- `s.replace(/suffix$/, '')`. -/
def dropSuffix (suffix cs : List Char) : List Char :=
  if suffix.isSuffixOf cs then cs.take (cs.length - suffix.length) else cs

/-- `stripAliasDecorations` of a text in normal form KC. -/
def stripDecorations (cs : List Char) : List Char :=
  let cs := cs.dropWhile (· == '@')
  let cs := dropSuffix ".sl1.one".toList cs
  let cs := dropSuffix "@simplelayer.one".toList cs
  let cs := dropSuffix "@sl1".toList cs
  cs.takeWhile (· != '@')

def stripAliasDecorations (p : NamePlatform) (value : Option Json) : JsM (List Char) := do
  let raw ← strOrEmpty value
  return stripDecorations (p.nfkc (p.lower (trim raw))).toList

/-- Every run of characters `p` becomes one `c`; the text before ends in such a run when `inRun`. -/
def squeeze (p : Char → Bool) (c : Char) (inRun : Bool) : List Char → List Char
  | [] => []
  | x :: xs =>
    if p x then
      if inRun then squeeze p c true xs else c :: squeeze p c true xs
    else x :: squeeze p c false xs

/-- Without a hyphen at the end. -/
def dropLastHyphen (cs : List Char) : List Char :=
  if cs.getLast? = some '-' then cs.dropLast else cs

/-- Without a hyphen at the start. -/
def dropFirstHyphen : List Char → List Char
  | '-' :: cs => cs
  | cs => cs

/-- The label of the name, in the letters of names. -/
def normalizeLabel (cs : List Char) : List Char :=
  let cs := squeeze isWhite '-' false (transliterateCyrillic cs)
  let cs := squeeze (· == '-') '-' false (cs.filter isLabelChar)
  let cs := dropLastHyphen (dropFirstHyphen cs)
  dropLastHyphen (cs.take 24)

def normalizeAlias (p : NamePlatform) (value : Option Json) : JsM (Option String) := do
  let label ← stripAliasDecorations p value
  let normalized := normalizeLabel label
  return if normalized = [] then none else some (String.ofList (normalized ++ ".sl1.one".toList))

/-! ## Names in normal form -/

/-- No two hyphens follow each other. -/
def SingleHyphens (cs : List Char) : Prop := cs.IsChain fun a b => ¬ (a = '-' ∧ b = '-')

/-- A label in normal form. -/
structure IsLabel (cs : List Char) : Prop where
  chars : ∀ c ∈ cs, isLabelChar c = true
  hyphens : SingleHyphens cs
  first : cs.head? ≠ some '-'
  last : cs.getLast? ≠ some '-'
  short : cs.length ≤ 24

theorem mem_squeeze {p : Char → Bool} {c : Char} {inRun : Bool} {cs : List Char} {x : Char}
    (h : x ∈ squeeze p c inRun cs) : x = c ∨ x ∈ cs := by
  induction cs generalizing inRun with
  | nil => cases h
  | cons y ys ih =>
    unfold squeeze at h
    split at h
    · split at h
      · exact (ih h).imp_right (List.mem_cons_of_mem y)
      · rcases List.mem_cons.mp h with h | h
        · exact .inl h
        · exact (ih h).imp_right (List.mem_cons_of_mem y)
    · rcases List.mem_cons.mp h with rfl | h
      · exact .inr List.mem_cons_self
      · exact (ih h).imp_right (List.mem_cons_of_mem y)

/-- After a squeeze hyphens are single, and none comes right after a run. -/
theorem squeeze_hyphens (inRun : Bool) (cs : List Char) :
    SingleHyphens (squeeze (· == '-') '-' inRun cs) ∧
      (inRun = true → (squeeze (· == '-') '-' inRun cs).head? ≠ some '-') := by
  induction cs generalizing inRun with
  | nil => exact ⟨.nil, fun _ => nofun⟩
  | cons x xs ih =>
    unfold squeeze
    by_cases hx : (x == '-') = true
    · rw [if_pos hx]
      cases inRun with
      | true => exact ⟨(ih true).1, fun _ => (ih true).2 rfl⟩
      | false =>
        refine ⟨List.isChain_cons.mpr ⟨fun b hb hyphens => ?_, (ih true).1⟩, nofun⟩
        rw [Option.mem_def, hyphens.2] at hb
        exact (ih true).2 rfl hb
    · rw [if_neg hx]
      have hne : x ≠ '-' := fun h => hx (beq_iff_eq.mpr h)
      exact ⟨List.isChain_cons.mpr ⟨fun b _ hyphens => hne hyphens.1, (ih false).1⟩,
        fun _ heq => hne (Option.some.inj heq)⟩

theorem squeeze_of_single {inRun : Bool} {cs : List Char} (h : SingleHyphens cs)
    (hrun : inRun = true → cs.head? ≠ some '-') : squeeze (· == '-') '-' inRun cs = cs := by
  induction cs generalizing inRun with
  | nil => rfl
  | cons x xs ih =>
    obtain ⟨hhead, htail⟩ := List.isChain_cons.mp h
    unfold squeeze
    by_cases hx : (x == '-') = true
    · rw [if_pos hx]
      have hxeq : x = '-' := beq_iff_eq.mp hx
      cases inRun with
      | true => exact absurd (congrArg some hxeq) (hrun rfl)
      | false =>
        rw [if_neg Bool.false_ne_true, ih htail fun _ hnext => hhead '-' hnext ⟨hxeq, rfl⟩, hxeq]
    · rw [if_neg hx, ih htail fun (hrun : false = true) => nomatch hrun]

theorem squeeze_of_none {p : Char → Bool} {c : Char} {inRun : Bool} {cs : List Char}
    (h : ∀ x ∈ cs, p x = false) : squeeze p c inRun cs = cs := by
  induction cs generalizing inRun with
  | nil => rfl
  | cons x xs ih =>
    unfold squeeze
    rw [if_neg (by rw [h x List.mem_cons_self]; exact Bool.false_ne_true),
      ih fun y hy => h y (List.mem_cons_of_mem x hy)]

theorem SingleHyphens.infix {cs ds : List Char} (h : SingleHyphens cs) (hin : ds <:+: cs) :
    SingleHyphens ds := List.IsChain.infix h hin

theorem dropFirstHyphen_suffix (cs : List Char) : dropFirstHyphen cs <:+ cs := by
  unfold dropFirstHyphen
  split
  · exact List.suffix_cons _ _
  · exact List.suffix_rfl

theorem dropFirstHyphen_head {cs : List Char} (h : SingleHyphens cs) :
    (dropFirstHyphen cs).head? ≠ some '-' := by
  unfold dropFirstHyphen
  split
  · next cs =>
    intro hhead
    exact (List.isChain_cons.mp h).1 '-' hhead ⟨rfl, rfl⟩
  · next hno =>
    intro hhead
    cases cs with
    | nil => cases hhead
    | cons c cs =>
      cases hhead
      exact hno cs rfl

theorem dropFirstHyphen_of_head {cs : List Char} (h : cs.head? ≠ some '-') :
    dropFirstHyphen cs = cs := by
  unfold dropFirstHyphen
  split
  · exact absurd rfl h
  · rfl

theorem dropLastHyphen_prefix (cs : List Char) : dropLastHyphen cs <+: cs := by
  unfold dropLastHyphen
  split
  · exact List.dropLast_prefix cs
  · exact List.prefix_rfl

theorem dropLastHyphen_last {cs : List Char} (h : SingleHyphens cs) :
    (dropLastHyphen cs).getLast? ≠ some '-' := by
  unfold dropLastHyphen
  split
  · next hlast =>
    obtain ⟨ds, rfl⟩ := List.getLast?_eq_some_iff.mp hlast
    rw [List.dropLast_concat]
    intro hlast'
    exact (List.isChain_append.mp h).2.2 '-' hlast' '-' rfl ⟨rfl, rfl⟩
  · next hlast => exact hlast

theorem dropLastHyphen_of_last {cs : List Char} (h : cs.getLast? ≠ some '-') :
    dropLastHyphen cs = cs :=
  if_neg h

theorem head_of_prefix {cs ds : List Char} (hinit : ds <+: cs) (h : cs.head? ≠ some '-') :
    ds.head? ≠ some '-' := by
  obtain ⟨es, rfl⟩ := hinit
  cases ds with
  | nil => exact nofun
  | cons d ds => exact h

/-- What `normalizeLabel` gives is in normal form. -/
theorem isLabel_normalizeLabel (cs : List Char) : IsLabel (normalizeLabel cs) := by
  unfold normalizeLabel
  dsimp only
  generalize squeeze isWhite '-' false (transliterateCyrillic cs) = text
  have hchars : ∀ c ∈ squeeze (· == '-') '-' false (text.filter isLabelChar),
      isLabelChar c = true := by
    intro c hc
    rcases mem_squeeze hc with rfl | hc
    · rfl
    · exact (List.mem_filter.mp hc).2
  have hsingle := (squeeze_hyphens false (text.filter isLabelChar)).1
  generalize squeeze (· == '-') '-' false (text.filter isLabelChar) = label at hchars hsingle ⊢
  have hfirst := dropFirstHyphen_suffix label
  have hlast := dropLastHyphen_prefix (dropFirstHyphen label)
  have htake := List.take_prefix 24 (dropLastHyphen (dropFirstHyphen label))
  have hend := dropLastHyphen_prefix ((dropLastHyphen (dropFirstHyphen label)).take 24)
  have hinit := (hend.trans htake).trans hlast
  have hsingle' : SingleHyphens ((dropLastHyphen (dropFirstHyphen label)).take 24) :=
    hsingle.infix ((htake.trans hlast).isInfix.trans hfirst.isInfix)
  refine ⟨fun c hc => ?_, hsingle.infix (hinit.isInfix.trans hfirst.isInfix),
    head_of_prefix hinit (dropFirstHyphen_head hsingle), dropLastHyphen_last hsingle', ?_⟩
  · exact hchars c (hfirst.subset (hinit.subset hc))
  · exact hend.length_le.trans (List.length_take_le 24 _)

theorem isNameChar_range {c : Char} (h : isNameChar c = true) : 45 ≤ c.toNat ∧ c.toNat ≤ 122 := by
  simp only [isNameChar, isLabelChar, isLowerLetter, Char.isDigit, Char.le_def, Bool.or_eq_true,
    Bool.and_eq_true, decide_eq_true_eq, beq_iff_eq, UInt32.le_iff_toNat_le] at h
  have hnat : c.val.toNat = c.toNat := rfl
  rcases h with ((⟨hlow, hhigh⟩ | ⟨hlow, hhigh⟩) | rfl) | rfl
  · rw [hnat] at hlow hhigh
    exact ⟨le_trans (by decide) hlow, hhigh⟩
  · rw [hnat] at hlow hhigh
    exact ⟨le_trans (by decide) hlow, le_trans hhigh (by decide)⟩
  · decide
  · decide

theorem isWhite_of_name {c : Char} (h : isNameChar c = true) : isWhite c = false := by
  obtain ⟨hlow, hhigh⟩ := isNameChar_range h
  simp [isWhite]
  omega

theorem isNameChar_of_label {c : Char} (h : isLabelChar c = true) : isNameChar c = true := by
  unfold isNameChar
  rw [h, Bool.true_or]

theorem transliterate_label {cs : List Char} (h : ∀ c ∈ cs, isLabelChar c = true) :
    transliterateCyrillic cs = cs := by
  have hnone : ∀ c, isLabelChar c = true → CYRILLIC_TRANSLITERATION.lookup c = none := by
    intro c hc
    refine List.lookup_eq_none_iff.mpr fun q hq => bne_iff_ne.mpr ?_
    rintro rfl
    have hno : ∀ q ∈ CYRILLIC_TRANSLITERATION, isLabelChar q.1 = false := by decide
    rw [hno q hq] at hc
    cases hc
  unfold transliterateCyrillic
  induction cs with
  | nil => rfl
  | cons c cs ih =>
    rw [List.flatMap_cons, hnone c (h c List.mem_cons_self),
      ih fun d hd => h d (List.mem_cons_of_mem c hd)]
    rfl

/-- A label in normal form stays as it is. -/
theorem IsLabel.normalizeLabel {cs : List Char} (h : IsLabel cs) : normalizeLabel cs = cs := by
  have hwhite : ∀ c ∈ cs, isWhite c = false := fun c hc =>
    isWhite_of_name (isNameChar_of_label (h.chars c hc))
  unfold Node.normalizeLabel
  dsimp only
  rw [transliterate_label h.chars, squeeze_of_none hwhite, List.filter_eq_self.mpr h.chars,
    squeeze_of_single h.hyphens (fun (hrun : false = true) => nomatch hrun),
    dropFirstHyphen_of_head h.first, dropLastHyphen_of_last h.last, List.take_of_length_le h.short,
    dropLastHyphen_of_last h.last]

example : normalizeLabel "ёлка  -тест!".toList = "yolka-test".toList := by decide

theorem at_notMem {cs : List Char} (h : ∀ c ∈ cs, isLabelChar c = true) : '@' ∉ cs := fun hmem => by
  cases h '@' hmem

theorem dropSuffix_of_at {suffix cs : List Char} (hat : '@' ∈ suffix) (h : '@' ∉ cs) :
    dropSuffix suffix cs = cs :=
  if_neg fun hsuffix => h ((List.isSuffixOf_iff_suffix.mp hsuffix).subset hat)

/-- The suffix of the network is all that is taken off a name in normal form. -/
theorem IsLabel.stripDecorations {cs : List Char} (h : IsLabel cs) :
    stripDecorations (cs ++ ".sl1.one".toList) = cs := by
  have hat := at_notMem h.chars
  have hall : ∀ c ∈ cs, c ≠ '@' := fun c hc heq => hat (heq ▸ hc)
  have hsuffix : ∀ c ∈ ".sl1.one".toList, (c != '@') = true := List.all_eq_true.mp (by decide)
  have hname : ∀ c ∈ cs ++ ".sl1.one".toList, (c == '@') = false := by
    intro c hc
    rcases List.mem_append.mp hc with hc | hc
    · exact beq_false_of_ne (hall c hc)
    · exact beq_false_of_ne (bne_iff_ne.mp (hsuffix c hc))
  have hdrop : (cs ++ ".sl1.one".toList).dropWhile (· == '@') = cs ++ ".sl1.one".toList := by
    rw [List.dropWhile_eq_self_iff]
    intro hlen
    rw [hname _ (List.getElem_mem hlen)]
    exact Bool.false_ne_true
  unfold Node.stripDecorations
  rw [hdrop]
  dsimp only
  have htaken : dropSuffix ".sl1.one".toList (cs ++ ".sl1.one".toList) = cs := by
    unfold dropSuffix
    rw [if_pos (List.isSuffixOf_iff_suffix.mpr (List.suffix_append _ _)), List.length_append,
      Nat.add_sub_cancel, List.take_left]
  rw [htaken, dropSuffix_of_at (by decide) hat, dropSuffix_of_at (by decide) hat,
    List.takeWhile_eq_self_iff]
  exact fun c hc => bne_iff_ne.mpr (hall c hc)

section
variable {p : NamePlatform} {value : Option Json} {name : String}

/-- A name that `normalizeAlias` gives is in its normal form. -/
theorem normalizeAlias_normal (h : normalizeAlias p value = .ok (some name)) :
    normalizeAlias p (some (.str name)) = .ok (some name) := by
  obtain ⟨typed, _, h⟩ := bind_eq_ok.mp h
  have hlabel := isLabel_normalizeLabel typed
  dsimp only at h
  split at h
  · cases h
  · next hne =>
    cases h
    generalize Node.normalizeLabel typed = label at hlabel hne
    have hsuffix : ∀ c ∈ ".sl1.one".toList, isNameChar c = true :=
      List.all_eq_true.mp (by decide)
    have hchars : ∀ c ∈ (String.ofList (label ++ ".sl1.one".toList)).toList, isNameChar c = true := by
      intro c hc
      rw [String.toList_ofList] at hc
      rcases List.mem_append.mp hc with hc | hc
      · exact isNameChar_of_label (hlabel.chars c hc)
      · exact hsuffix c hc
    unfold normalizeAlias stripAliasDecorations
    rw [strOrEmpty_str, ok_bind, trim_of_none fun c hc => isWhite_of_name (hchars c hc),
      p.lower_name _ hchars, p.nfkc_name _ hchars, String.toList_ofList, hlabel.stripDecorations]
    simp only [pure_eq_ok, ok_bind, hlabel.normalizeLabel, if_neg hne]

end

end SimpleL1.Node
