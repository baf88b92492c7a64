import FirstMatch.Proofs.Json.Token

/-!
What readers make of the text of a document: of lists, of objects, and so of values. Whatever may
follow, the text is taken up and no more, and there is a result exactly if the document stands for
one.
-/

namespace FirstMatch

theorem Document.Spelled.opens {d : Document} {text : List Char} (h : d.Spelled text) :
    Reader.Opens text := by
  cases h with
  | token h => exact h.opens.opens
  | list h => exact ⟨'[', _, rfl, by decide⟩
  | object h => exact ⟨'{', _, rfl, by decide⟩

section Sequences

variable {β : Type} {spelled : β → List Char → Prop} {close : Char} {xs : List β} {text : List Char}

theorem SpelledRest.length_le (h : SpelledRest spelled close xs text) :
    xs.length ≤ text.length := by
  induction h with
  | close => exact Nat.zero_le _
  | comma _ _ _ _ ih =>
    simp only [List.length_cons, List.length_append]
    omega

theorem SpelledRest.delimited (h : SpelledRest spelled close xs text)
    (hc : close.isDigit = false ∧ close ≠ '.' ∧ close ≠ 'e' ∧ close ≠ 'E') (rest : List Char) :
    Delimited (text ++ rest) := by
  cases h with
  | close hb =>
    rw [List.append_assoc]
    exact hb.delimited (delimited_cons rest hc)
  | comma hb =>
    rw [List.append_assoc]
    exact hb.delimited (delimited_cons _ (by decide))

theorem SpelledRest.exists_of_mem (h : SpelledRest spelled close xs text) {x : β} (hx : x ∈ xs) :
    ∃ part, spelled x part ∧ part.length ≤ text.length := by
  induction h with
  | close => cases hx
  | comma _ _ head _ ih =>
    rcases List.mem_cons.mp hx with rfl | hx
    · refine ⟨_, head, ?_⟩
      simp only [List.length_append, List.length_cons]
      omega
    · obtain ⟨part, hpart, hle⟩ := ih hx
      refine ⟨part, hpart, ?_⟩
      simp only [List.length_append, List.length_cons]
      omega

theorem SpelledBody.exists_of_mem (h : SpelledBody spelled close xs text) {x : β} (hx : x ∈ xs) :
    ∃ part, spelled x part ∧ part.length ≤ text.length := by
  cases h with
  | empty => cases hx
  | cons _ head tail =>
    rcases List.mem_cons.mp hx with rfl | hx
    · refine ⟨_, head, ?_⟩
      simp only [List.length_append]
      omega
    · obtain ⟨part, hpart, hle⟩ := tail.exists_of_mem hx
      refine ⟨part, hpart, ?_⟩
      simp only [List.length_append]
      omega

end Sequences

def Document.named? (mode : Strictness) (ms : List (List Piece × Document)) :
    Option (List (String × Document)) :=
  ms.mapM fun m => (Piece.string? mode m.1).map (·, m.2)

theorem Document.named?_cons (mode : Strictness) (name : List Piece) (d : Document)
    (ms : List (List Piece × Document)) :
    named? mode ((name, d) :: ms) =
      (Piece.string? mode name).bind fun key => (named? mode ms).map ((key, d) :: ·) := by
  rw [named?, List.mapM_cons]
  cases Piece.string? mode name with
  | none => rfl
  | some key =>
    rw [Document.named?]
    cases ms.mapM fun m => (Piece.string? mode m.1).map (·, m.2) <;> rfl

namespace Reader

variable {ε α β σ : Type}

/-- A reader takes up this text after any blanks, as long as what follows does not go on with a
numeral. It has this result, or none. -/
def Takes (read : Reader ε α) (text : List Char) (result : Option α) : Prop :=
  ∀ blanks rest, Blank blanks → Delimited rest →
    (read (blanks ++ (text ++ rest))).toOption = result.map (·, rest)

theorem Takes.all {read : Reader ε α} {text before after : List Char} {result : Option α}
    (h : Takes read text result) (hb : Blank before) (ha : Blank after) :
    (all read (before ++ (text ++ after))).toOption = result := by
  have hd : Delimited after := by
    have hnil : Delimited [] := nofun
    simpa using ha.delimited hnil
  have hfinish : (finish after : Except (ReadError ε) Unit) = .ok () := by
    have hskip : skipBlanks after = [] := by
      simpa [skipBlanks] using skipBlanks_append ha []
    simp only [finish, hskip, List.isEmpty_nil, if_true]
  rw [Reader.all, toOption_bind, h before after hb hd]
  cases result with
  | none => rfl
  | some x =>
    simp only [Option.map_some, Option.bind_some, hfinish]
    rfl

/-! Lists -/

theorem nextItem_close (mode : Strictness) {blanks : List Char} (hb : Blank blanks)
    (rest : List Char) :
    (nextItem mode (blanks ++ ']' :: rest) : Except (ReadError ε) _) = .ok (false, rest) := by
  rw [nextItem, skipBlanks_append hb]
  rfl

theorem nextItem_comma (mode : Strictness) {before after text : List Char} (hb : Blank before)
    (ha : Blank after) (h : Opens text) (rest : List Char) :
    (nextItem mode (before ++ ',' :: (after ++ (text ++ rest))) : Except (ReadError ε) _) =
      .ok (true, text ++ rest) := by
  have hn := nextItem_opens (ε := ε) mode h rest
  have hcomma : isBlank ',' = false := by decide
  simp only [nextItem, skipBlanks_append hb, skipBlanks_cons _ hcomma, skipBlanks_append ha] at hn ⊢
  exact hn

theorem firstItem_close {blanks : List Char} (hb : Blank blanks) (rest : List Char) :
    (firstItem (blanks ++ ']' :: rest) : Except (ReadError ε) _) = .ok (false, rest) := by
  rw [firstItem, skipBlanks_append hb]
  rfl

theorem firstItem_blanks {blanks text : List Char} (hb : Blank blanks) (h : Opens text)
    (rest : List Char) :
    (firstItem (blanks ++ (text ++ rest)) : Except (ReadError ε) _) = .ok (true, text ++ rest) := by
  have hf := firstItem_opens (ε := ε) h rest
  simp only [firstItem, skipBlanks_append hb] at hf ⊢
  exact hf

def TakesAll (read : Reader ε α) (spelled : β → List Char → Prop) (result : β → Option α)
    (xs : List β) : Prop :=
  ∀ x ∈ xs, ∀ text, spelled x text → Opens text ∧ Takes read text (result x)

theorem Takes.read_eq {read : Reader ε α} {text rest : List Char} {result : Option α}
    (h : Takes read text result) (hr : Delimited rest) :
    (read (text ++ rest)).toOption = result.map (·, rest) := h [] rest nofun hr

variable {read : Reader ε α} {spelled : β → List Char → Prop} {result : β → Option α}
  {xs : List β} {text : List Char}

theorem moreItems_spelled (mode : Strictness) (h : SpelledRest spelled ']' xs text)
    (ht : TakesAll read spelled result xs) {fuel : List Char} (hf : xs.length ≤ fuel.length)
    (rest : List Char) :
    (moreItems mode read fuel (text ++ rest)).toOption = (xs.mapM result).map (·, rest) := by
  induction h generalizing fuel with
  | close hb =>
    rw [List.append_assoc]
    cases fuel <;> rw [moreItems, toOption_bind, List.cons_append, nextItem_close mode hb] <;> rfl
  | @comma before after text tail x xs hb ha head htail ih =>
    cases fuel with
    | nil => exact absurd hf (by simp)
    | cons c fuel =>
      obtain ⟨hopens, htakes⟩ := ht x List.mem_cons_self text head
      have hx := htakes.read_eq (htail.delimited (by decide) rest)
      have hxs := ih (fun y hy => ht y (List.mem_cons_of_mem x hy)) (Nat.le_of_succ_le_succ hf)
      have hstep : moreItems mode read (c :: fuel)
          (before ++ ',' :: (after ++ (text ++ (tail ++ rest)))) =
          read (text ++ (tail ++ rest)) >>= fun head =>
            moreItems mode read fuel head.2 >>= fun more =>
              pure (head.1 :: more.1, more.2) := by
        rw [moreItems, nextItem_comma mode hb ha hopens]
        rfl
      simp only [List.append_assoc, List.cons_append]
      rw [hstep, toOption_bind, hx, List.mapM_cons]
      cases result x with
      | none => rfl
      | some y =>
        simp only [Option.map_some, Option.bind_some, toOption_bind, hxs]
        cases xs.mapM result <;> rfl

theorem items_spelled (mode : Strictness) (h : SpelledBody spelled ']' xs text)
    (ht : TakesAll read spelled result xs) (rest : List Char) :
    (items mode read (text ++ rest)).toOption = (xs.mapM result).map (·, rest) := by
  cases h with
  | empty hb =>
    rw [List.append_assoc, items, List.cons_append, firstItem_close hb]
    rfl
  | @cons blanks text tail x xs hb head htail =>
    obtain ⟨hopens, htakes⟩ := ht x List.mem_cons_self text head
    have hx := htakes.read_eq (htail.delimited (by decide) rest)
    have hfuel : xs.length ≤ (tail ++ rest).length := by
      rw [List.length_append]
      exact Nat.le_trans htail.length_le (Nat.le_add_right _ _)
    have hxs := moreItems_spelled mode htail (fun y hy => ht y (List.mem_cons_of_mem x hy)) hfuel
      rest
    have hstep : items mode read (blanks ++ (text ++ (tail ++ rest))) =
        read (text ++ (tail ++ rest)) >>= fun head =>
          moreItems mode read head.2 head.2 >>= fun more => pure (head.1 :: more.1, more.2) := by
      rw [items, firstItem_blanks hb hopens]
      rfl
    simp only [List.append_assoc]
    rw [hstep, toOption_bind, hx, List.mapM_cons]
    cases result x with
    | none => rfl
    | some y =>
      simp only [Option.map_some, Option.bind_some, toOption_bind, hxs]
      cases xs.mapM result <;> rfl

/-! Objects -/

theorem nextMember_close (mode : Strictness) {blanks : List Char} (hb : Blank blanks)
    (rest : List Char) :
    (nextMember mode (blanks ++ '}' :: rest) : Except (ReadError ε) _) = .ok (false, rest) := by
  rw [nextMember, skipBlanks_append hb]
  rfl

theorem nextMember_comma (mode : Strictness) {before after : List Char} (hb : Blank before)
    (ha : Blank after) (rest : List Char) :
    (nextMember mode (before ++ ',' :: (after ++ '"' :: rest)) : Except (ReadError ε) _) =
      .ok (true, rest) := by
  have hcomma : isBlank ',' = false := by decide
  have hquote : isBlank '"' = false := by decide
  simp only [nextMember, skipBlanks_append hb, skipBlanks_cons _ hcomma, skipBlanks_append ha,
    skipBlanks_cons _ hquote]

theorem firstMember_close {blanks : List Char} (hb : Blank blanks) (rest : List Char) :
    (firstMember (blanks ++ '}' :: rest) : Except (ReadError ε) _) = .ok (false, rest) := by
  rw [firstMember, skipBlanks_append hb]
  rfl

theorem firstMember_blanks {blanks : List Char} (hb : Blank blanks) (rest : List Char) :
    (firstMember (blanks ++ '"' :: rest) : Except (ReadError ε) _) = .ok (true, rest) := by
  rw [firstMember, skipBlanks_append hb]
  rfl

theorem colon_blanks {blanks : List Char} (hb : Blank blanks) (rest : List Char) :
    (colon (blanks ++ ':' :: rest) : Except (ReadError ε) _) = .ok ((), rest) := by
  rw [colon, skipBlanks_append hb]
  rfl

theorem Takes.afterColon {read : Reader ε α} {text after : List Char} {result : Option α}
    (h : Takes read text result) (ha : Blank after) (f : α → β) :
    Takes (fun text => do
      let ((), rest) ← colon text
      let (x, rest) ← read rest
      return (f x, rest)) (':' :: (after ++ text)) (result.map f) := by
  intro before rest hb hr
  have hc : (colon (before ++ ':' :: (after ++ (text ++ rest))) : Except (ReadError ε) _) =
      .ok ((), after ++ (text ++ rest)) := colon_blanks hb _
  simp only [List.cons_append, List.append_assoc, hc]
  change (read (after ++ (text ++ rest)) >>= fun x => pure (f x.1, x.2)).toOption = _
  rw [toOption_bind, h after rest ha hr]
  cases result <;> rfl

/-- Whatever has been read before them, the texts of these members are taken up after their
names. -/
def TakesMembers (read : σ → String → Reader ε σ) (step : σ → String × Document → Option σ)
    (ms : List (List Piece × Document)) : Prop :=
  ∀ m ∈ ms, ∀ text after, m.2.Spelled text → Blank after → ∀ state name,
    Takes (read state name) (':' :: (after ++ text)) (step state (name, m.2))

variable {readMember : σ → String → Reader ε σ} {step : σ → String × Document → Option σ}
  {ms : List (List Piece × Document)}

theorem member_spelled (mode : Strictness) {m : List Piece × Document}
    (h : SpelledMember Document.Spelled m text) (ht : TakesMembers readMember step [m])
    (state : σ) {rest : List Char} (hr : Delimited rest) :
    ∃ tail, text = '"' :: tail ∧
      (string mode (tail ++ rest) >>= fun key => readMember state key.1 key.2).toOption =
        ((Piece.string? mode m.1).bind fun key => step state (key, m.2)).map (·, rest) := by
  obtain @⟨name, d, quoted, before, after, text, hname, hb, ha, hd⟩ := h
  refine ⟨_, rfl, ?_⟩
  have hread := ht (name, d) List.mem_cons_self text after hd ha state
  simp only [List.append_assoc, List.cons_append, toOption_bind, string_spelled mode hname]
  cases Piece.string? mode name with
  | none => rfl
  | some key =>
    have hvalue := hread key before rest hb hr
    simp only [List.append_assoc, List.cons_append] at hvalue
    simp only [Option.map_some, Option.bind_some, hvalue]

theorem foldlM_named (mode : Strictness) (m : List Piece × Document)
    (ms : List (List Piece × Document)) (state : σ) :
    (Document.named? mode (m :: ms)).bind (List.foldlM step state) =
      ((Piece.string? mode m.1).bind fun key => step state (key, m.2)).bind fun next =>
        (Document.named? mode ms).bind (List.foldlM step next) := by
  obtain ⟨name, d⟩ := m
  rw [Document.named?_cons]
  cases Piece.string? mode name with
  | none => rfl
  | some key =>
    cases hnext : step state (key, d) <;> cases Document.named? mode ms <;> simp [hnext]

theorem moreMembers_spelled (mode : Strictness)
    (h : SpelledRest (SpelledMember Document.Spelled) '}' ms text)
    (ht : TakesMembers readMember step ms) {fuel : List Char} (hf : ms.length ≤ fuel.length)
    (state : σ) (rest : List Char) :
    (moreMembers mode readMember fuel state (text ++ rest)).toOption =
      ((Document.named? mode ms).bind (List.foldlM step state)).map (·, rest) := by
  induction h generalizing fuel state with
  | close hb =>
    rw [List.append_assoc]
    cases fuel <;>
      rw [moreMembers, toOption_bind, List.cons_append, nextMember_close mode hb] <;> rfl
  | @comma before after text tail m ms hb ha head htail ih =>
    cases fuel with
    | nil => exact absurd hf (by simp)
    | cons c fuel =>
      have hms := ih (fun n hn => ht n (List.mem_cons_of_mem _ hn)) (Nat.le_of_succ_le_succ hf)
      obtain ⟨inner, rfl, hm⟩ := member_spelled mode head
        (fun n hn => ht n (List.mem_singleton.mp hn ▸ List.mem_cons_self)) state
        (htail.delimited (by decide) rest)
      have hstep : moreMembers mode readMember (c :: fuel) state
          (before ++ ',' :: (after ++ '"' :: (inner ++ (tail ++ rest)))) =
          (string mode (inner ++ (tail ++ rest)) >>= fun key => readMember state key.1 key.2) >>=
            fun next => moreMembers mode readMember fuel next.1 next.2 := by
        rw [moreMembers, nextMember_comma mode hb ha, bind_assoc]
        rfl
      simp only [List.append_assoc, List.cons_append, hstep]
      rw [toOption_bind, hm, foldlM_named]
      cases (Piece.string? mode m.1).bind fun key => step state (key, m.2) with
      | none => rfl
      | some next => exact hms next

theorem members_spelled (mode : Strictness)
    (h : SpelledBody (SpelledMember Document.Spelled) '}' ms text)
    (ht : TakesMembers readMember step ms) (init : σ) (rest : List Char) :
    (members mode readMember init (text ++ rest)).toOption =
      ((Document.named? mode ms).bind (List.foldlM step init)).map (·, rest) := by
  cases h with
  | empty hb =>
    rw [List.append_assoc, members, List.cons_append, firstMember_close hb]
    rfl
  | @cons blanks text tail m ms hb head htail =>
    have hfuel : ms.length ≤ (tail ++ rest).length := by
      rw [List.length_append]
      exact Nat.le_trans htail.length_le (Nat.le_add_right _ _)
    have hms := moreMembers_spelled mode htail (fun n hn => ht n (List.mem_cons_of_mem _ hn)) hfuel
    obtain ⟨inner, rfl, hm⟩ := member_spelled mode head
      (fun n hn => ht n (List.mem_singleton.mp hn ▸ List.mem_cons_self)) init
      (htail.delimited (by decide) rest)
    have hstep : members mode readMember init (blanks ++ '"' :: (inner ++ (tail ++ rest))) =
        (string mode (inner ++ (tail ++ rest)) >>= fun key => readMember init key.1 key.2) >>=
          fun next => moreMembers mode readMember next.2 next.1 next.2 := by
      rw [members, firstMember_blanks hb, bind_assoc]
      rfl
    simp only [List.append_assoc, List.cons_append, hstep]
    rw [toOption_bind, hm, foldlM_named]
    cases (Piece.string? mode m.1).bind fun key => step init (key, m.2) with
    | none => rfl
    | some next => exact hms next rest

/-! Values -/

theorem value_blanks (mode : Strictness) (depth : Nat) {blanks : List Char} (hb : Blank blanks)
    (text : List Char) :
    (value mode depth (blanks ++ text) : Except (ReadError ε) _) = value mode depth text := by
  cases depth <;> simp only [value, skipBlanks_append hb]

def valueStep (mode : Strictness) (step : σ → String × Json → Option σ) (state : σ)
    (m : String × Document) : Option σ :=
  (m.2.value? mode).bind fun v => step state (m.1, v)

theorem foldlM_valueStep (mode : Strictness) (step : σ → String × Json → Option σ)
    (ms : List (List Piece × Document)) (state : σ) :
    (Document.named? mode ms).bind (List.foldlM (valueStep mode step) state) =
      (Document.members? mode ms).bind (List.foldlM step state) := by
  induction ms generalizing state with
  | nil => rfl
  | cons m ms ih =>
    obtain ⟨name, d⟩ := m
    rw [foldlM_named, Document.members?]
    cases Piece.string? mode name with
    | none => rfl
    | some key =>
      cases hv : d.value? mode with
      | none => simp [valueStep, hv]
      | some v =>
        simp only [valueStep, hv, Option.bind_some]
        cases hstep : step state (key, v) with
        | none => cases Document.members? mode ms <;> simp [hstep]
        | some next =>
          rw [Option.bind_some, ih]
          cases Document.members? mode ms <;> simp [hstep]

def addMember (before : List (String × Json)) (m : String × Json) :
    Option (List (String × Json)) :=
  some (m :: before)

theorem foldlM_addMember (ms before : List (String × Json)) :
    ms.foldlM addMember before = some (ms.reverse ++ before) := by
  induction ms generalizing before with
  | nil => rfl
  | cons m ms ih =>
    rw [List.foldlM_cons, addMember, List.reverse_cons, List.append_assoc]
    exact ih (m :: before)

theorem member_takes {read : Reader ε Json} {d : Document} {mode : Strictness}
    {text after : List Char} (h : Takes read text (d.value? mode)) (ha : Blank after)
    (before : List (String × Json)) (name : String) :
    Takes (member read before name) (':' :: (after ++ text))
      (valueStep mode addMember before (name, d)) := by
  have hmember := h.afterColon ha fun v => (name, v) :: before
  rw [Option.map_eq_bind] at hmember
  exact hmember

/-- A document that is not nested too deep is read as the value that it stands for. -/
theorem value_takes (mode : Strictness) (depth : Nat) {d : Document} {text : List Char}
    (h : d.Spelled text) (hh : d.height ≤ depth) :
    Takes (value mode depth : Reader ε Json) text (d.value? mode) := by
  -- The grammar nests through sequences, so the induction is on the depth.
  induction depth generalizing d text with
  | zero =>
    intro blanks rest hb hr
    rw [value_blanks mode 0 hb]
    cases h with
    | token h =>
      rw [value_opensScalar mode 0 h.opens]
      exact scalar_spelled mode h hr
    | list h => cases hh
    | object h => cases hh
  | succ depth ih =>
    intro blanks rest hb hr
    rw [value_blanks mode _ hb]
    cases h with
    | token h =>
      rw [value_opensScalar mode _ h.opens]
      exact scalar_spelled mode h hr
    | @list ds text h =>
      rw [Document.height] at hh
      have hread : TakesAll (value mode depth : Reader ε Json) Document.Spelled
          (Document.value? mode) ds := by
        intro d hd t ht
        have hle := Document.height_le_of_mem_items hd
        exact ⟨ht.opens, ih ht (by omega)⟩
      have hitems := items_spelled mode h hread rest
      rw [List.cons_append, value, skipBlanks_bracket]
      change (items mode (value mode depth) (text ++ rest) >>= fun xs =>
        pure (Json.list xs.1, xs.2)).toOption = _
      rw [toOption_bind, hitems, Document.value?, Document.items?_eq]
      cases ds.mapM (Document.value? mode) <;> rfl
    | @object ms text h =>
      rw [Document.height] at hh
      have hread : TakesMembers (member (value mode depth : Reader ε Json))
          (valueStep mode addMember) ms := by
        intro m hm t after ht ha before name
        have hle := Document.height_le_of_mem_members hm
        exact member_takes (ih ht (by omega)) ha before name
      have hmembers := members_spelled mode h hread [] rest
      rw [List.cons_append, value, skipBlanks_brace]
      change (members mode (member (value mode depth)) [] (text ++ rest) >>= fun vs =>
        pure (Json.object vs.1.reverse, vs.2)).toOption = _
      rw [toOption_bind, hmembers, foldlM_valueStep, Document.value?]
      cases Document.members? mode ms with
      | none => rfl
      | some vs => simp [foldlM_addMember, toOption_pure]

end Reader

namespace Document

theorem heightItems_le {items : List Document} {bound : Nat}
    (h : ∀ d ∈ items, d.height ≤ bound) : heightItems items ≤ bound := by
  induction items with
  | nil => exact Nat.zero_le _
  | cons d ds ih =>
    exact Nat.max_le.mpr ⟨h d List.mem_cons_self, ih fun e he => h e (List.mem_cons_of_mem d he)⟩

theorem heightMembers_le {members : List (List Piece × Document)} {bound : Nat}
    (h : ∀ m ∈ members, m.2.height ≤ bound) : heightMembers members ≤ bound := by
  induction members with
  | nil => exact Nat.zero_le _
  | cons m ms ih =>
    exact Nat.max_le.mpr ⟨h m List.mem_cons_self, ih fun n hn => h n (List.mem_cons_of_mem m hn)⟩

/-- Every bracket that is opened is a character of the text. -/
theorem Spelled.height_le {d : Document} {text : List Char} (h : d.Spelled text) :
    d.height ≤ text.length := by
  induction hn : text.length using Nat.strongRecOn generalizing d text with
  | _ n ih =>
    subst hn
    cases h with
    | token h => exact Nat.zero_le _
    | @list items text h =>
      refine Nat.succ_le_succ (heightItems_le fun d hd => ?_)
      obtain ⟨part, hpart, hle⟩ := h.exists_of_mem hd
      exact Nat.le_trans (ih _ (Nat.lt_succ_of_le hle) hpart rfl) hle
    | @object members text h =>
      refine Nat.succ_le_succ (heightMembers_le fun m hm => ?_)
      obtain ⟨part, hpart, hle⟩ := h.exists_of_mem hm
      obtain @⟨name, d, quoted, before, after, value, -, -, -, hd⟩ := hpart
      simp only [List.length_cons, List.length_append] at hle
      have hlt : value.length < ('{' :: text).length := by
        simp only [List.length_cons]
        omega
      exact Nat.le_trans (ih value.length hlt hd rfl) (by omega)

end Document

theorem Piece.string?_lenient (ps : List Piece) : (string? .lenient ps).isSome = true := by
  have ht : (text? .lenient ps).isSome = true := by
    induction ps with
    | nil => rfl
    | cons p ps ih => cases p <;> rw [text?, Option.isSome_map, ih]
  rw [string?, Option.isSome_map, ht]

theorem Token.value?_lenient (t : Token) : (t.value? .lenient).isSome = true := by
  cases t with
  | null => rfl
  | bool b => rfl
  | number n =>
    cases hv : n.value? <;> simp [value?, Numeral.number?, hv]
  | string ps => rw [value?, Option.isSome_map, Piece.string?_lenient]

namespace Document

mutual

/-- Read leniently, any document stands for a value. -/
theorem value?_lenient : ∀ d : Document, (d.value? .lenient).isSome = true
  | .token t => t.value?_lenient
  | .list items => by rw [value?, Option.isSome_map, items?_lenient items]
  | .object members => by rw [value?, Option.isSome_map, members?_lenient members]

theorem items?_lenient : ∀ items : List Document, (items? .lenient items).isSome = true
  | [] => rfl
  | d :: ds => by
    obtain ⟨v, hv⟩ := Option.isSome_iff_exists.mp (value?_lenient d)
    obtain ⟨vs, hvs⟩ := Option.isSome_iff_exists.mp (items?_lenient ds)
    rw [items?, hv, hvs]
    rfl

theorem members?_lenient :
    ∀ members : List (List Piece × Document), (members? .lenient members).isSome = true
  | [] => rfl
  | (name, d) :: ms => by
    obtain ⟨key, hkey⟩ := Option.isSome_iff_exists.mp (Piece.string?_lenient name)
    obtain ⟨v, hv⟩ := Option.isSome_iff_exists.mp (value?_lenient d)
    obtain ⟨vs, hvs⟩ := Option.isSome_iff_exists.mp (members?_lenient ms)
    rw [members?, hkey, hv, hvs]
    rfl

end

end Document

/-- A value that is passed over may be nested to any depth, and may stand for nothing. -/
theorem Reader.skip_takes {ε : Type} {d : Document} {text : List Char} (h : d.Spelled text) :
    Takes (skip : Reader ε Unit) text (some ()) := by
  intro blanks rest hb hr
  have hle : d.height ≤ (blanks ++ (text ++ rest)).length := by
    have := h.height_le
    simp only [List.length_append]
    omega
  obtain ⟨v, hv⟩ := Option.isSome_iff_exists.mp d.value?_lenient
  have ht := value_takes (ε := ε) .lenient _ h hle blanks rest hb hr
  rw [skip, toOption_bind, ht, hv]
  rfl

end FirstMatch
