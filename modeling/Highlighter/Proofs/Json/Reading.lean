import Highlighter.Json.Reader

/-! What the reader of JSON makes of a text that is put together of texts of values. Blanks may stand
between the pieces, so this serves every layout. -/

namespace Highlighter.Json

/-- A text that a value ends before: what comes after a number could otherwise be read as part of it. -/
def Ends (rest : List Char) : Prop := ∀ c ∈ rest.head?, isJsonBlank c ∨ c = ',' ∨ c = ']' ∨ c = '}'

def Blanks (s : List Char) : Prop := ∀ c ∈ s, isJsonBlank c

/-- A text that starts with a character that is neither blank nor a byte order mark, and does not close
an array. -/
def Opens (text : List Char) : Prop :=
  ∃ c rest, text = c :: rest ∧ isJsonBlank c = false ∧ c ≠ ']' ∧ c ≠ '\uFEFF'

/-- The body of a string, up to its closing quote, is read as the code points. -/
def ReadsBody (s : List CodePoint) (text : List Char) : Prop :=
  ∀ rest, string (text ++ '"' :: rest) = .ok (Str.ofList s, rest)

/-- A text is read as the value, in front of whatever a value ends before. -/
structure Reads (v : Value) (text : List Char) : Prop where
  opens : Opens text
  read : ∀ {fuel : Nat} {rest : List Char}, 2 * text.length ≤ fuel → Ends rest →
    value fuel (text ++ rest) = .ok (v, rest)

/-- A text is read as items up to the bracket that closes them. -/
structure ReadsItems (items : List Value) (text : List Char) : Prop where
  opens : Opens text
  read : ∀ {fuel : Nat} {rest : List Char}, 2 * text.length ≤ fuel →
    elements fuel (text ++ rest) = .ok (items, rest)

/-- A text is read as members up to the brace that closes them, after those before. -/
structure ReadsMembers (members : Members) (text : List Char) : Prop where
  opens : ∃ rest, text = '"' :: rest
  read : ∀ {fuel : Nat} {before : Members} {rest : List Char}, 2 * text.length ≤ fuel →
    ((before ++ members).map (·.1)).Nodup → membersFrom fuel before (text ++ rest) =
      .ok (before ++ members, rest)

section
variable {v : Value} {items : List Value} {members : Members} {name : Str}
  {text more bs cs rest body : List Char} {c : Char} {fuel : Nat}

/-! ### Blanks -/

theorem blanks_nil : Blanks [] := by simp [Blanks]

theorem blanks_space : Blanks [' '] := by simp [Blanks, isJsonBlank]

theorem skipBlanks_append (hb : Blanks bs) : skipBlanks (bs ++ text) = skipBlanks text := by
  rw [skipBlanks, List.dropWhile_append_of_pos hb]
  rfl

theorem skipBlanks_cons (hc : isJsonBlank c = false) : skipBlanks (c :: rest) = c :: rest := by
  simp [skipBlanks, hc]

theorem skipBlanks_all (hb : Blanks bs) : skipBlanks bs = [] := by
  have h : skipBlanks (bs ++ []) = skipBlanks [] := skipBlanks_append hb
  rwa [List.append_nil] at h

theorem skipBlanks_of_opens (h : Opens text) : skipBlanks (text ++ rest) = text ++ rest := by
  obtain ⟨c, cs, rfl, hc, -⟩ := h
  exact skipBlanks_cons hc

theorem ends_blanks (hb : Blanks bs) (h : Ends rest) : Ends (bs ++ rest) := by
  cases bs with
  | nil => exact h
  | cons c bs => simpa [Ends] using Or.inl (hb c List.mem_cons_self)

theorem ends_nil : Ends [] := by simp [Ends]

theorem ends_cons (h : c = ',' ∨ c = ']' ∨ c = '}') : Ends (c :: rest) := by simp [Ends, h]

/-! ### Pieces and wholes -/

theorem Reads.length_pos (h : Reads v text) : 0 < text.length := by
  obtain ⟨c, cs, rfl, -⟩ := h.opens
  exact Nat.succ_pos _

theorem reads_string {s : List CodePoint} (h : ReadsBody s body) :
    Reads (.string (.ofList s)) ('"' :: body ++ ['"']) where
  opens := ⟨'"', _, rfl, rfl, by decide, by decide⟩
  read {fuel rest} hfuel _ := by
    obtain ⟨fuel, rfl⟩ : ∃ n, fuel = n + 1 := ⟨fuel - 1, by simp at hfuel; omega⟩
    have hsplit : ('"' :: body ++ ['"']) ++ rest = '"' :: (body ++ '"' :: rest) := by simp
    rw [hsplit, value, if_pos (by decide), h rest]
    rfl

/-- A scalar is read by itself. -/
theorem reads_scalar (hopens : Opens text) (hstart : ∀ c ∈ text.head?, c ≠ '"' ∧ c ≠ '[' ∧ c ≠ '{')
    (h : ∀ {rest}, Ends rest → scalar (text ++ rest) = .ok (v, rest)) : Reads v text where
  opens := hopens
  read {fuel rest} hfuel hends := by
    obtain ⟨c, cs, rfl, -⟩ := hopens
    obtain ⟨fuel, rfl⟩ : ∃ n, fuel = n + 1 := ⟨fuel - 1, by simp at hfuel; omega⟩
    obtain ⟨hquote, hbracket, hbrace⟩ := hstart c rfl
    rw [List.cons_append, value, if_neg (by simpa using hquote), if_neg (by simpa using hbracket),
      if_neg (by simpa using hbrace)]
    exact h hends

theorem reads_emptyArray (hb : Blanks bs) : Reads (.array []) ('[' :: bs ++ [']']) where
  opens := ⟨'[', _, rfl, rfl, by decide, by decide⟩
  read {fuel rest} hfuel _ := by
    obtain ⟨fuel, rfl⟩ : ∃ n, fuel = n + 1 := ⟨fuel - 1, by simp at hfuel; omega⟩
    have hsplit : ('[' :: bs ++ [']']) ++ rest = '[' :: (bs ++ ']' :: rest) := by simp
    rw [hsplit, value, if_neg (by decide), if_pos (by decide), skipBlanks_append hb, skipBlanks_cons rfl]
    rfl

theorem reads_emptyObject (hb : Blanks bs) : Reads (.object []) ('{' :: bs ++ ['}']) where
  opens := ⟨'{', _, rfl, rfl, by decide, by decide⟩
  read {fuel rest} hfuel _ := by
    obtain ⟨fuel, rfl⟩ : ∃ n, fuel = n + 1 := ⟨fuel - 1, by simp at hfuel; omega⟩
    have hsplit : ('{' :: bs ++ ['}']) ++ rest = '{' :: (bs ++ '}' :: rest) := by simp
    rw [hsplit, value, if_neg (by decide), if_neg (by decide), if_pos (by decide), skipBlanks_append hb,
      skipBlanks_cons rfl]
    rfl

theorem ReadsItems.reads (hb : Blanks bs) (h : ReadsItems items text) :
    Reads (.array items) ('[' :: bs ++ text) where
  opens := ⟨'[', _, rfl, rfl, by decide, by decide⟩
  read {fuel rest} hfuel _ := by
    obtain ⟨fuel, rfl⟩ : ∃ n, fuel = n + 1 := ⟨fuel - 1, by simp at hfuel; omega⟩
    have hsplit : ('[' :: bs ++ text) ++ rest = '[' :: (bs ++ (text ++ rest)) := by simp
    have hread : elements fuel (text ++ rest) = .ok (items, rest) := h.read (by simp at hfuel; omega)
    rw [hsplit, value, if_neg (by decide), if_pos (by decide), skipBlanks_append hb,
      skipBlanks_of_opens h.opens]
    split
    · rename_i heq
      obtain ⟨c, cs, rfl, -, hc, -⟩ := h.opens
      exact absurd (List.cons.inj heq).1 hc
    · rw [hread]
      rfl

theorem ReadsMembers.reads (hb : Blanks bs) (names : (members.map (·.1)).Nodup)
    (h : ReadsMembers members text) : Reads (.object members) ('{' :: bs ++ text) where
  opens := ⟨'{', _, rfl, rfl, by decide, by decide⟩
  read {fuel rest} hfuel _ := by
    obtain ⟨fuel, rfl⟩ : ∃ n, fuel = n + 1 := ⟨fuel - 1, by simp at hfuel; omega⟩
    have hsplit : ('{' :: bs ++ text) ++ rest = '{' :: (bs ++ (text ++ rest)) := by simp
    have hread : membersFrom fuel [] (text ++ rest) = .ok (members, rest) :=
      h.read (by simp at hfuel; omega) names
    obtain ⟨cs, rfl⟩ := h.opens
    rw [hsplit, value, if_neg (by decide), if_neg (by decide), if_pos (by decide), skipBlanks_append hb,
      List.cons_append, skipBlanks_cons rfl]
    split
    · rename_i heq
      exact absurd (List.cons.inj heq).1 (by decide)
    · rw [← List.cons_append, hread]
      rfl

/-! ### Items -/

theorem readsItems_last (h : Reads v text) (hb : Blanks bs) : ReadsItems [v] (text ++ bs ++ [']']) where
  opens := by
    obtain ⟨c, cs, rfl, hc⟩ := h.opens
    exact ⟨c, _, rfl, hc⟩
  read {fuel rest} hfuel := by
    have hpos := h.length_pos
    obtain ⟨fuel, rfl⟩ : ∃ n, fuel = n + 1 := ⟨fuel - 1, by simp at hfuel; omega⟩
    have hsplit : (text ++ bs ++ [']']) ++ rest = text ++ (bs ++ ']' :: rest) := by simp
    have hread : value fuel (text ++ (bs ++ ']' :: rest)) = .ok (v, bs ++ ']' :: rest) :=
      h.read (by simp at hfuel; omega) (ends_blanks hb (ends_cons (by simp)))
    rw [hsplit, elements, hread]
    simp only [bind, Except.bind, skipBlanks_append hb, skipBlanks_cons (c := ']') rfl]
    rfl

theorem readsItems_cons (h : Reads v text) (hb : Blanks bs) (hc : Blanks cs)
    (hmore : ReadsItems items more) : ReadsItems (v :: items) (text ++ bs ++ ',' :: cs ++ more) where
  opens := by
    obtain ⟨c, cs, rfl, hc⟩ := h.opens
    exact ⟨c, _, rfl, hc⟩
  read {fuel rest} hfuel := by
    have hpos := h.length_pos
    obtain ⟨fuel, rfl⟩ : ∃ n, fuel = n + 1 := ⟨fuel - 1, by simp at hfuel; omega⟩
    have hsplit : (text ++ bs ++ ',' :: cs ++ more) ++ rest = text ++ (bs ++ ',' :: (cs ++ (more ++ rest))) := by
      simp
    have hread : value fuel (text ++ (bs ++ ',' :: (cs ++ (more ++ rest)))) =
        .ok (v, bs ++ ',' :: (cs ++ (more ++ rest))) :=
      h.read (by simp at hfuel; omega) (ends_blanks hb (ends_cons (by simp)))
    have hrest : elements fuel (more ++ rest) = .ok (items, rest) :=
      hmore.read (by simp at hfuel; omega)
    rw [hsplit, elements, hread]
    simp only [bind, Except.bind, skipBlanks_append hb, skipBlanks_cons (c := ',') rfl,
      skipBlanks_append hc, skipBlanks_of_opens hmore.opens, hrest]
    rfl

/-! ### Members -/

/-- The name of a member and the colon after it. -/
theorem membersFrom_name {before : Members} (hname : ReadsBody name.toList body) (hb : Blanks bs)
    (hc : Blanks cs) (hopens : Opens text) :
    membersFrom (fuel + 1) before ('"' :: (body ++ '"' :: (bs ++ ':' :: (cs ++ (text ++ rest))))) = (do
      let (v, after) ← value fuel (text ++ rest)
      let members := put before name v
      match skipBlanks after with
      | '}' :: rest => return (members, rest)
      | ',' :: rest => membersFrom fuel members (skipBlanks rest)
      | rest => stop .comma rest) := by
  have hread := hname (bs ++ ':' :: (cs ++ (text ++ rest)))
  have hafter : skipBlanks (cs ++ (text ++ rest)) = text ++ rest := by
    rw [skipBlanks_append hc, skipBlanks_of_opens hopens]
  rw [membersFrom, hread]
  simp only [bind, Except.bind, skipBlanks_append hb, skipBlanks_cons (c := ':') rfl]
  generalize skipBlanks (cs ++ (text ++ rest)) = s at hafter ⊢
  subst hafter
  rfl

theorem put_of_new {before : Members} (h : name ∉ before.map (·.1)) :
    put before name v = before ++ [(name, v)] := by
  rw [put, if_neg]
  simpa using h

theorem readsMembers_last (hname : ReadsBody name.toList body) (hb : Blanks bs) (hc : Blanks cs)
    (h : Reads v text) {ds : List Char} (hd : Blanks ds) :
    ReadsMembers [(name, v)] ('"' :: (body ++ '"' :: (bs ++ ':' :: (cs ++ (text ++ (ds ++ ['}'])))))) where
  opens := ⟨_, rfl⟩
  read {fuel before rest} hfuel hnames := by
    obtain ⟨fuel, rfl⟩ : ∃ n, fuel = n + 1 := ⟨fuel - 1, by simp at hfuel; omega⟩
    have hsplit : ('"' :: (body ++ '"' :: (bs ++ ':' :: (cs ++ (text ++ (ds ++ ['}'])))))) ++ rest =
        '"' :: (body ++ '"' :: (bs ++ ':' :: (cs ++ (text ++ (ds ++ '}' :: rest))))) := by simp
    have hread : value fuel (text ++ (ds ++ '}' :: rest)) = .ok (v, ds ++ '}' :: rest) :=
      h.read (by simp at hfuel; omega) (ends_blanks hd (ends_cons (by simp)))
    rw [hsplit, membersFrom_name hname hb hc h.opens, hread]
    simp only [bind, Except.bind, skipBlanks_append hd, skipBlanks_cons (c := '}') rfl]
    rw [put_of_new (by simp [List.nodup_append] at hnames ⊢; grind)]
    rfl

theorem readsMembers_cons (hname : ReadsBody name.toList body) (hb : Blanks bs) (hc : Blanks cs)
    (h : Reads v text) {ds es : List Char} (hd : Blanks ds) (he : Blanks es)
    (hmore : ReadsMembers members more) : ReadsMembers ((name, v) :: members)
      ('"' :: (body ++ '"' :: (bs ++ ':' :: (cs ++ (text ++ (ds ++ ',' :: (es ++ more))))))) where
  opens := ⟨_, rfl⟩
  read {fuel before rest} hfuel hnames := by
    obtain ⟨fuel, rfl⟩ : ∃ n, fuel = n + 1 := ⟨fuel - 1, by simp at hfuel; omega⟩
    have hsplit :
        ('"' :: (body ++ '"' :: (bs ++ ':' :: (cs ++ (text ++ (ds ++ ',' :: (es ++ more))))))) ++ rest =
          '"' :: (body ++ '"' :: (bs ++ ':' :: (cs ++ (text ++ (ds ++ ',' :: (es ++ (more ++ rest))))))) := by
      simp
    have hread : value fuel (text ++ (ds ++ ',' :: (es ++ (more ++ rest)))) =
        .ok (v, ds ++ ',' :: (es ++ (more ++ rest))) :=
      h.read (by simp at hfuel; omega) (ends_blanks hd (ends_cons (by simp)))
    have hrest : membersFrom fuel (before ++ [(name, v)]) (more ++ rest) =
        .ok (before ++ [(name, v)] ++ members, rest) :=
      hmore.read (by simp at hfuel; omega) (by simpa using hnames)
    obtain ⟨more, rfl⟩ := hmore.opens
    rw [hsplit, membersFrom_name hname hb hc h.opens, hread]
    simp only [bind, Except.bind, skipBlanks_append hd, skipBlanks_cons (c := ',') rfl,
      skipBlanks_append he, List.cons_append, skipBlanks_cons (c := '"') rfl]
    rw [put_of_new (by simp [List.nodup_append] at hnames ⊢; grind), ← List.cons_append, hrest]
    simp

/-! ### Whole texts -/

/-- A text of a value between blanks is a document. -/
theorem Reads.document (h : Reads v text) (hb : Blanks bs) : document (text ++ bs) = .ok v := by
  have hread : value (2 * (text ++ bs).length + 2) (text ++ bs) = .ok (v, bs) :=
    h.read (by rw [List.length_append]; omega)
      (by simpa using ends_blanks hb ends_nil)
  obtain ⟨c, cs, rfl, hc, -, hmark⟩ := h.opens
  unfold Json.document
  split
  · rename_i heq
    exact absurd (List.cons.inj heq).1 hmark
  · rw [List.cons_append, skipBlanks_cons hc, ← List.cons_append, hread]
    simp only [bind, Except.bind, skipBlanks_all hb]
    rfl

end

end Highlighter.Json
