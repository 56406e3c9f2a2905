import KhelaKaro.App

/-! # Cleaned forms

`validateFields` tests some fields as they are typed and some as they are cleaned, and only the cleaned ones are sent.
Cleaning takes white space off both ends of a text (`trimming_eq_iff`), so an email keeps its form, but a password or a
contact number may lose the length that was tested. That a contact number has digits alone is never tested. -/

namespace KhelaKaro

/-! ### Trimming -/

/-- The text is `core` between white space, with none at the ends of `core`. -/
structure Framed (s core : String) : Prop where
  parts : ∃ before after, s.toList = before ++ core.toList ++ after ∧
    (∀ c ∈ before, isWhitespaceOrNewline c = true) ∧ ∀ c ∈ after, isWhitespaceOrNewline c = true
  first : ∀ c, core.toList.head? = some c → isWhitespaceOrNewline c = false
  last : ∀ c, core.toList.getLast? = some c → isWhitespaceOrNewline c = false

section Lists
variable {α : Type} {p : α → Bool} {l core before after : List α}

theorem rdropWhile_append_of_pos (h : ∀ a ∈ after, p a = true) : (l ++ after).rdropWhile p = l.rdropWhile p := by
  rw [List.rdropWhile, List.rdropWhile, List.reverse_append,
    List.dropWhile_append_of_pos fun a ha => h a (List.mem_reverse.mp ha)]

theorem rdropWhile_eq_self (h : ∀ a, l.getLast? = some a → p a = false) : l.rdropWhile p = l := by
  rw [List.rdropWhile_eq_self_iff]
  intro hl
  rw [h _ (List.getLast?_eq_some_getLast hl)]
  exact Bool.false_ne_true

theorem dropWhile_rdropWhile_append (hbefore : ∀ a ∈ before, p a = true) (hafter : ∀ a ∈ after, p a = true)
    (hfirst : ∀ a, core.head? = some a → p a = false) (hlast : ∀ a, core.getLast? = some a → p a = false) :
    ((before ++ core ++ after).dropWhile p).rdropWhile p = core := by
  rw [List.append_assoc, List.dropWhile_append_of_pos hbefore]
  cases core with
  | nil => rw [List.nil_append, List.dropWhile_eq_nil_iff.mpr hafter, List.rdropWhile_nil]
  | cons a core =>
    have ha : ¬p a = true := by
      rw [hfirst a rfl]
      exact Bool.false_ne_true
    rw [List.cons_append, List.dropWhile_cons_of_neg ha, ← List.cons_append, rdropWhile_append_of_pos hafter,
      rdropWhile_eq_self hlast]

end Lists

theorem trimming_framed (s : String) : Framed s (trimming s) := by
  have hcore : (trimming s).toList = (s.toList.dropWhile isWhitespaceOrNewline).rdropWhile isWhitespaceOrNewline := by
    rw [trimming, String.toList_ofList]
  refine ⟨⟨s.toList.takeWhile isWhitespaceOrNewline,
    (s.toList.dropWhile isWhitespaceOrNewline).rtakeWhile isWhitespaceOrNewline, ?_, fun c => List.mem_takeWhile_imp,
    fun c => List.mem_rtakeWhile_imp⟩, fun c hc => ?_, fun c hc => ?_⟩
  · rw [hcore, List.append_assoc, List.rdropWhile_append_rtakeWhile, List.takeWhile_append_dropWhile]
  · rw [hcore] at hc
    obtain ⟨rest, hrest⟩ := List.rdropWhile_prefix isWhitespaceOrNewline (l := s.toList.dropWhile isWhitespaceOrNewline)
    have hhead := List.head?_dropWhile_not isWhitespaceOrNewline s.toList
    rw [← hrest, List.head?_append, hc, Option.some_or] at hhead
    exact hhead
  · rw [hcore] at hc
    have hne : (s.toList.dropWhile isWhitespaceOrNewline).rdropWhile isWhitespaceOrNewline ≠ [] := by
      rintro hnil
      rw [hnil] at hc
      cases hc
    have hlast := List.rdropWhile_last_not isWhitespaceOrNewline _ hne
    rw [List.getLast?_eq_some_getLast hne, Option.some.injEq] at hc
    rw [hc, Bool.not_eq_true] at hlast
    exact hlast

theorem trimming_eq_iff {s core : String} : trimming s = core ↔ Framed s core := by
  constructor
  · rintro rfl
    exact trimming_framed s
  · rintro ⟨⟨before, after, hs, hbefore, hafter⟩, hfirst, hlast⟩
    refine String.toList_inj.mp ?_
    rw [trimming, String.toList_ofList, hs]
    exact dropWhile_rdropWhile_append hbefore hafter hfirst hlast

/-- No white space stands first or last in the text. -/
structure Unspaced (s : String) : Prop where
  first : ∀ c, s.toList.head? = some c → isWhitespaceOrNewline c = false
  last : ∀ c, s.toList.getLast? = some c → isWhitespaceOrNewline c = false

theorem Unspaced.of_forall {s : String} (h : ∀ c ∈ s.toList, isWhitespaceOrNewline c = false) : Unspaced s :=
  ⟨fun c hc => h c (List.mem_of_mem_head? hc), fun c hc => h c (List.mem_of_getLast? hc)⟩

theorem Unspaced.trimming_eq {s : String} (h : Unspaced s) : trimming s = s :=
  trimming_eq_iff.mpr ⟨⟨[], [], by simp, nofun, nofun⟩, h.first, h.last⟩

/-! ### The email -/

/-- The characters of the email pattern, and `@` -/
def isEmailChar (c : Char) : Bool := isLetter c || c.isDigit || c ∈ ['.', '_', '%', '+', '-', '@']

theorem le_z_of_isEmailChar {c : Char} (h : isEmailChar c = true) : c ≤ 'z' := by
  unfold isEmailChar isLetter at h
  simp only [Bool.or_eq_true, Bool.and_eq_true, decide_eq_true_eq] at h
  rcases h with ((⟨-, h⟩ | ⟨-, h⟩) | h) | h
  · exact Char.le_trans h (by decide)
  · exact h
  · exact Char.le_trans (b := '9') (Char.isDigit_iff_toNat.mp h).2 (by decide)
  · have hall : (['.', '_', '%', '+', '-', '@'].all fun c => c ≤ 'z') = true := by decide
    exact of_decide_eq_true (List.all_eq_true.mp hall c h)

theorem not_white_of_isEmailChar {c : Char} (h : isEmailChar c = true) : isWhitespaceOrNewline c = false := by
  by_contra hwhite
  rw [Bool.not_eq_false, isWhitespaceOrNewline, Bool.or_eq_true, Bool.and_eq_true, decide_eq_true_eq,
    decide_eq_true_eq] at hwhite
  rcases hwhite with hwhite | ⟨hlow, -⟩
  · have hnone : ([' ', '\t', '\n', '\x0b', '\x0c', '\r', '\u0085', '\u00a0', '\u1680', '\u2028', '\u2029',
        '\u202f', '\u205f', '\u3000'].all fun c => !isEmailChar c) = true := by decide
    have hchar := List.all_eq_true.mp hnone c hwhite
    rw [h] at hchar
    cases hchar
  · exact absurd (Char.le_trans hlow (le_z_of_isEmailChar h)) (by decide)

theorem append_of_mem_cuts {cs : List Char} {e : List Char × List Char} (h : e ∈ cuts cs) : e.1 ++ e.2 = cs := by
  obtain ⟨n, -, rfl⟩ := List.mem_map.mp h
  rw [List.splitAt_eq]
  exact List.take_append_drop n cs

theorem isEmailChar_of_mem {c : Char} {cs : List Char} (hcs : cs ⊆ ['.', '_', '%', '+', '-', '@'])
    (h : (isLetter c || c.isDigit || c ∈ cs) = true) : isEmailChar c = true := by
  rw [Bool.or_eq_true, decide_eq_true_eq] at h
  unfold isEmailChar
  rw [Bool.or_eq_true, decide_eq_true_eq]
  exact h.imp id fun hc => hcs hc

/-- Nothing but the characters of the pattern, so no white space -/
theorem isEmailChar_of_isValidEmail {s : String} (h : isValidEmail s = true) {c : Char} (hc : c ∈ s.toList) :
    isEmailChar c = true := by
  obtain ⟨⟨name, rest⟩, hcut, h⟩ := List.any_eq_true.mp h
  simp only [Bool.and_eq_true] at h
  obtain ⟨⟨-, hname⟩, h⟩ := h
  rw [← append_of_mem_cuts hcut, List.mem_append] at hc
  rcases hc with hc | hc
  · exact isEmailChar_of_mem (by decide) (List.all_eq_true.mp hname c hc)
  split at h
  case h_2 => cases h
  rcases List.mem_cons.mp hc with rfl | hc
  · rfl
  obtain ⟨⟨domain, rest⟩, hcut, h⟩ := List.any_eq_true.mp h
  simp only [Bool.and_eq_true] at h
  obtain ⟨⟨-, hdomain⟩, h⟩ := h
  rw [← append_of_mem_cuts hcut, List.mem_append] at hc
  rcases hc with hc | hc
  · exact isEmailChar_of_mem (by decide) (List.all_eq_true.mp hdomain c hc)
  split at h
  case h_2 => cases h
  rcases List.mem_cons.mp hc with rfl | hc
  · rfl
  rw [Bool.and_eq_true] at h
  unfold isEmailChar
  rw [List.all_eq_true.mp h.2 c hc]
  rfl

theorem trimming_email {s : String} (h : isValidEmail s = true) : trimming s = s :=
  (Unspaced.of_forall fun _ hc => not_white_of_isEmailChar (isEmailChar_of_isValidEmail h hc)).trimming_eq

/-! ### The contact number -/

theorem not_white_of_isDigit {c : Char} (h : c.isDigit = true) : isWhitespaceOrNewline c = false :=
  not_white_of_isEmailChar (by simp [isEmailChar, h])

section Count
variable [SwiftString] {s t core : String}

theorem count_empty : SwiftString.count "" = 0 := SwiftString.count_digits "" nofun

theorem count_white_append {d : Char} (hs : ∀ c ∈ s.toList, isWhitespaceOrNewline c = true)
    (ht : t.toList.head? = some d) (hd : d.isDigit = true) :
    SwiftString.count (s ++ t) = SwiftString.count s + SwiftString.count t := by
  cases hlast : s.toList.getLast? with
  | none =>
    obtain rfl : s = "" := String.toList_eq_nil_iff.mp (List.getLast?_eq_none_iff.mp hlast)
    rw [count_empty, Nat.zero_add, String.empty_append]
  | some c => exact SwiftString.count_append s t c d hlast ht (Or.inl ⟨hs c (List.mem_of_getLast? hlast), hd⟩)

theorem count_append_white {c : Char} (hs : s.toList.getLast? = some c) (hc : c.isDigit = true)
    (ht : ∀ d ∈ t.toList, isWhitespaceOrNewline d = true) :
    SwiftString.count (s ++ t) = SwiftString.count s + SwiftString.count t := by
  cases hhead : t.toList.head? with
  | none =>
    obtain rfl : t = "" := String.toList_eq_nil_iff.mp (List.head?_eq_none_iff.mp hhead)
    rw [count_empty, Nat.add_zero, String.append_empty]
  | some d => exact SwiftString.count_append s t c d hs hhead (Or.inr ⟨hc, ht d (List.mem_of_mem_head? hhead)⟩)

/-- White space around digits counts. -/
theorem eq_of_framed_digits (h : Framed s core) (hne : core ≠ "") (hdigits : ∀ c ∈ core.toList, c.isDigit = true)
    (hcount : SwiftString.count s = SwiftString.count core) : s = core := by
  obtain ⟨⟨before, after, hs, hbefore, hafter⟩, -, -⟩ := h
  have hs : s = String.ofList before ++ (core ++ String.ofList after) := String.toList_inj.mp (by simp [hs])
  have hlist : core.toList ≠ [] := mt String.toList_eq_nil_iff.mp hne
  have hhead : (core ++ String.ofList after).toList.head? = some (core.toList.head hlist) := by
    rw [String.toList_append, List.head?_append, List.head?_eq_some_head hlist, Option.some_or]
  have hbefore' := count_white_append (s := String.ofList before) (by simpa using hbefore) hhead
    (hdigits _ (List.head_mem hlist))
  have hafter' := count_append_white (t := String.ofList after) (List.getLast?_eq_some_getLast hlist)
    (hdigits _ (List.getLast_mem hlist)) (by simpa using hafter)
  rw [hs, hbefore', hafter'] at hcount
  have hempty : ∀ t, SwiftString.count t = 0 → t = "" := fun t ht => by
    by_contra hne
    exact (SwiftString.count_pos t hne).ne' ht
  rw [hs, hempty (String.ofList before) (by omega), hempty (String.ofList after) (by omega), String.empty_append,
    String.append_empty]

end Count

/-! ### The rules -/

/-- The request is made from the cleaned fields. -/
theorem registerInMongo_cleaned (f : Form) : f.registerInMongo =
    .obj [("firstName", .str f.cleaned.firstName), ("lastName", .str f.cleaned.lastName),
      ("email", .str f.cleaned.email), ("contactNumber", .str f.cleaned.phoneNo)] := rfl

/-- The rules that the messages of `validateFields` announce. -/
structure CleanedFields.Valid [SwiftString] (v : CleanedFields) : Prop where
  firstName : v.firstName ≠ ""
  lastName : v.lastName ≠ ""
  email : isValidEmail v.email = true
  password : 6 ≤ SwiftString.count v.password
  phoneNo : v.phoneNo.length = 10 ∧ ∀ c ∈ v.phoneNo.toList, c.isDigit = true

/-- A form that passes is sent by the rules if its contact number is typed in digits alone and no white space stands at
    the ends of its password; with any other contact number it is not. -/
theorem cleaned_valid_of_typed [SwiftString] (f : Form) (h : f.validateFields = none) :
    ((∀ c ∈ f.contactNumber.toList, c.isDigit = true) → Unspaced f.password → f.cleaned.Valid) ∧
      (f.cleaned.Valid → ∀ c ∈ f.contactNumber.toList, c.isDigit = true) := by
  obtain ⟨⟨-, hfirst, hlast, -, -, hfilled⟩, hemail, -, hsix, hcount⟩ := Form.validateFields_eq_none_iff.mp h
  constructor
  · intro hdigits hpassword
    have heq : trimming f.contactNumber = f.contactNumber :=
      (Unspaced.of_forall fun c hc => not_white_of_isDigit (hdigits c hc)).trimming_eq
    refine ⟨hfirst, hlast, ?_, ?_, ?_⟩
    · unfold Form.cleaned
      rw [trimming_email hemail]
      exact hemail
    · unfold Form.cleaned
      rw [hpassword.trimming_eq]
      exact hsix
    · unfold Form.cleaned
      rw [heq, ← SwiftString.count_digits _ hdigits]
      exact ⟨hcount, hdigits⟩
  · intro hv
    obtain ⟨hlength, hdigits⟩ := hv.phoneNo
    have heq : f.contactNumber = trimming f.contactNumber := by
      refine eq_of_framed_digits (trimming_framed _) hfilled hdigits ?_
      calc SwiftString.count f.contactNumber = (trimming f.contactNumber).length := hcount.trans hlength.symm
        _ = SwiftString.count (trimming f.contactNumber) := (SwiftString.count_digits _ hdigits).symm
    rw [heq]
    exact hdigits

def spacedForm : Form := ⟨" New", "Player ", "new@club.test", "0123456789", "my secret", "my secret"⟩

theorem cleaned_valid_of_typed_spaced : spacedForm.cleaned.Valid := by
  have hfirst : spacedForm.password.toList.head? = some 'm' := by decide +kernel
  have hlast : spacedForm.password.toList.getLast? = some 't' := by decide +kernel
  refine (cleaned_valid_of_typed spacedForm (by decide +kernel)).1 (List.all_eq_true.mp (by decide +kernel))
    ⟨fun c hc => ?_, fun c hc => ?_⟩
  · rw [hfirst, Option.some.injEq] at hc
    subst hc
    decide
  · rw [hlast, Option.some.injEq] at hc
    subst hc
    decide

/-- The contact number has ten characters, eight of them digits. -/
def shortForm : Form := ⟨"New", "Player", "new@club.test", "12345678  ", "secret", "secret"⟩

theorem not_cleaned_valid_short : shortForm.validateFields = none ∧ ¬shortForm.cleaned.Valid := by
  refine ⟨by decide +kernel, fun h => ?_⟩
  have hlength : shortForm.cleaned.phoneNo.length = 8 := by decide +kernel
  exact absurd (hlength.symm.trans h.phoneNo.1) (by decide)

end KhelaKaro
