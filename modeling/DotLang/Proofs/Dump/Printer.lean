import DotLang.Dump.Basic
import DotLang.Proofs.Dump.Quote

/-!
# Reading dumps over several lines

The text of a dump over several lines shows the dump, and where it ends (`prettyAt_append_inj`). The sign behind a
name tells what kind of dump it is, and what is within brackets ends where the indentation goes back by a level. All
that is needed for this is that names consist of letters and digits; texts can hold anything, since they are quoted.

## Main results

* `pretty_inj`: no two dumps have the same text over several lines.
-/

namespace DotLang.Dump

/-! ## Names -/

/-- Whether a name consists of letters and digits. -/
def IsName (name : String) : Prop :=
  ∀ c ∈ name.toList, c.isAlphanum = true

instance (name : String) : Decidable (IsName name) :=
  List.decidableBAll (fun c : Char => c.isAlphanum = true) name.toList

mutual

/-- Whether all names in a dump consist of letters and digits. -/
def WellNamed : Dump → Prop
  | atom word => IsName word
  | .text _ => True
  | apply name arguments => IsName name ∧ ItemsWellNamed arguments
  | fields name members _ => IsName name ∧ MembersWellNamed members
  | list items => ItemsWellNamed items

/-- Whether this holds for some dumps. -/
def ItemsWellNamed : List Dump → Prop
  | [] => True
  | item :: items => WellNamed item ∧ ItemsWellNamed items

/-- Whether this holds for some named dumps, and for their names. -/
def MembersWellNamed : List (String × Dump) → Prop
  | [] => True
  | (name, value) :: members => IsName name ∧ WellNamed value ∧ MembersWellNamed members

end

variable {level : Nat} {first second : Dump} {rest rest' : List Char}

/-- A name tells where it ends, if it ends where no letter or digit follows. -/
theorem IsName.append_inj {name name' : String} (h : IsName name) (h' : IsName name')
    (hend : ∀ c ∈ rest.head?, c.isAlphanum = false) (hend' : ∀ c ∈ rest'.head?, c.isAlphanum = false)
    (heq : name.toList ++ rest = name'.toList ++ rest') : name = name' ∧ rest = rest' := by
  obtain ⟨htake, hdrop⟩ := Token.takeWhile_of_all h hend
  obtain ⟨htake', hdrop'⟩ := Token.takeWhile_of_all h' hend'
  rw [heq, htake'] at htake
  rw [heq, hdrop'] at hdrop
  exact ⟨String.toList_inj.1 htake.symm, hdrop.symm⟩

/-! ## Beginnings -/

/-- The name in front of a dump, which is empty where a dump has none. -/
def name : Dump → String
  | atom word => word
  | apply name _ => name
  | fields name _ _ => name
  | .text _ | list _ => ""

/-- The sign behind the name of a dump. A name that stands alone has none. -/
def sign : Dump → Option Char
  | atom _ => none
  | .text _ => some '"'
  | apply _ _ => some '('
  | fields _ _ _ => some ' '
  | list _ => some '['

/-- Whether the text of a dump can end in front of this: an item is followed by a comma. -/
def Ends (rest : List Char) : Prop :=
  ∀ c ∈ rest.head?, c = ','

/-- The name of a well-named dump is a name. -/
theorem WellNamed.isName (h : first.WellNamed) : IsName first.name := by
  cases first with
  | atom => exact h
  | apply | fields => exact h.1
  | text | list => simp [name, IsName]

/-- No sign goes on with a name, or follows an item. -/
theorem sign_spec (dump : Dump) : ∀ c ∈ dump.sign, c.isAlphanum = false ∧ c ≠ ',' := by
  cases dump <;> simp [sign]

/-- A dump is written with its name first, and with its sign behind the name. -/
theorem exists_body (level : Nat) (dump : Dump) :
    ∃ body, prettyAt level dump = dump.name.toList ++ body ∧ body.head? = dump.sign := by
  cases dump with
  | atom word => exact ⟨[], (List.append_nil _).symm, rfl⟩
  | text value => exact ⟨_, (List.nil_append _).symm, rfl⟩
  | apply name arguments =>
    simp only [prettyAt, List.append_assoc]
    exact ⟨_, rfl, rfl⟩
  | fields name members abridged =>
    simp only [prettyAt, List.append_assoc]
    exact ⟨_, rfl, rfl⟩
  | list items => cases items <;> exact ⟨_, (List.nil_append _).symm, rfl⟩

/-- Equal texts begin with the same name and the same sign. -/
theorem name_sign_eq (h : first.WellNamed) (h' : second.WellNamed) (hend : Ends rest) (hend' : Ends rest')
    (heq : prettyAt level first ++ rest = prettyAt level second ++ rest') :
    first.name = second.name ∧ first.sign = second.sign := by
  obtain ⟨body, hbody, hsign⟩ := exists_body level first
  obtain ⟨body', hbody', hsign'⟩ := exists_body level second
  rw [hbody, hbody', List.append_assoc, List.append_assoc] at heq
  have hhead : (body ++ rest).head? = first.sign.or rest.head? := by rw [List.head?_append, hsign]
  have hhead' : (body' ++ rest').head? = second.sign.or rest'.head? := by rw [List.head?_append, hsign']
  -- Neither a sign nor a comma goes on with a name.
  have hstop {dump : Dump} {rest : List Char} (hend : Ends rest) :
      ∀ c ∈ dump.sign.or rest.head?, c.isAlphanum = false := by
    intro c hc
    rcases Option.or_eq_some_iff.1 hc with hc | ⟨-, hc⟩
    · exact (dump.sign_spec c hc).1
    · obtain rfl := hend c hc
      decide
  obtain ⟨hname, hmore⟩ := h.isName.append_inj h'.isName (hhead ▸ hstop hend) (hhead' ▸ hstop hend') heq
  refine ⟨hname, ?_⟩
  rw [hmore, hhead'] at hhead
  -- No sign is a comma.
  cases hs : first.sign with
  | none =>
    cases hs' : second.sign with
    | none => rfl
    | some c' =>
      rw [hs, hs', Option.none_or, Option.some_or] at hhead
      exact absurd (hend c' hhead.symm) (second.sign_spec c' hs').2
  | some c =>
    cases hs' : second.sign with
    | none =>
      rw [hs, hs', Option.none_or, Option.some_or] at hhead
      exact absurd (hend' c hhead) (first.sign_spec c hs).2
    | some c' =>
      rw [hs, hs'] at hhead
      exact hhead.symm

/-! ## Indentation -/

/-- Each level is indented by four blanks more than the one around it. -/
theorem newLine_succ (level : Nat) : newLine (level + 1) = newLine level ++ [' ', ' ', ' ', ' '] := by
  rw [newLine, newLine, Nat.mul_add, Nat.mul_one, ← List.replicate_append_replicate]
  rfl

/-- A sign on a new line is told from what is on a line indented by one level more. -/
theorem newLine_ne {close : Char} (hclose : close ≠ ' ') :
    newLine level ++ close :: rest ≠ newLine (level + 1) ++ rest' := by
  rw [newLine_succ, List.append_assoc]
  intro h
  exact hclose (List.cons.inj (List.append_cancel_left h)).1

/-- What is behind the members of a record: two dots on a line of their own, if some are left out, and a brace. -/
def closing (level : Nat) (abridged : Bool) (rest : List Char) : List Char :=
  (if abridged then newLine (level + 1) ++ ['.', '.'] else []) ++ (newLine level ++ '}' :: rest)

/-- What closes a level tells whether it was abridged, and where it ends. -/
theorem closing_inj {abridged abridged' : Bool} (h : closing level abridged rest = closing level abridged' rest') :
    abridged = abridged' ∧ rest = rest' := by
  cases abridged <;> cases abridged' <;>
    simp only [closing, if_true, if_false, Bool.false_eq_true, List.append_assoc, List.nil_append] at h
  · exact ⟨rfl, (List.cons.inj (List.append_cancel_left h)).2⟩
  -- A brace and a further line are told apart by the indentation.
  · exact absurd h (newLine_ne (by decide))
  · exact absurd h.symm (newLine_ne (by decide))
  · have hmore := List.append_cancel_left (List.append_cancel_left (List.append_cancel_left h))
    exact ⟨rfl, (List.cons.inj hmore).2⟩

/-- What closes a level does not look like a further member. -/
theorem closing_ne {abridged : Bool} {name : String} (h : IsName name) :
    closing level abridged rest ≠ newLine (level + 1) ++ (name.toList ++ ':' :: rest') := by
  cases abridged with
  | false => exact newLine_ne (by decide)
  | true =>
    rw [closing, if_pos rfl, List.append_assoc]
    intro heq
    replace heq := List.append_cancel_left heq
    -- The first of the two dots would belong to the name, or be the colon behind it.
    cases hname : name.toList with
    | nil => simp [hname] at heq
    | cons c cs =>
      rw [hname] at heq
      obtain rfl := (List.cons.inj heq).1
      exact absurd (h '.' (by simp [hname])) (by decide)

/-! ## Dumps -/

mutual

/-- The text of a dump tells the dump and where it ends. -/
theorem prettyAt_append_inj : ∀ (level : Nat) (first second : Dump) {rest rest' : List Char}, first.WellNamed →
    second.WellNamed → Ends rest → Ends rest' → prettyAt level first ++ rest = prettyAt level second ++ rest' →
    first = second ∧ rest = rest'
  | level, atom word, second, rest, rest', h, h', hend, hend', heq => by
    -- The sign leaves one kind for the second dump, here as in the other cases.
    obtain ⟨hname, hsign⟩ := name_sign_eq h h' hend hend' heq
    cases second with
    | atom word' =>
      obtain rfl : word = word' := hname
      exact ⟨rfl, List.append_cancel_left heq⟩
    | _ => cases hsign
  | level, .text value, second, rest, rest', h, h', hend, hend', heq => by
    obtain ⟨-, hsign⟩ := name_sign_eq h h' hend hend' heq
    cases second with
    | text value' =>
      obtain ⟨hvalue, hrest⟩ := quote_append_inj heq
      exact ⟨congrArg _ (String.toList_inj.1 hvalue), hrest⟩
    | _ => simp [sign] at hsign
  | level, apply name arguments, second, rest, rest', h, h', hend, hend', heq => by
    obtain ⟨hname, hsign⟩ := name_sign_eq h h' hend hend' heq
    cases second with
    | apply name' arguments' =>
      obtain rfl : name = name' := hname
      simp only [prettyAt, List.append_assoc, List.append_cancel_left_eq, List.singleton_append] at heq
      obtain ⟨rfl, hrest⟩ := prettyItems_append_inj level arguments arguments' (by decide) h.2 h'.2
        (List.cons.inj heq).2
      exact ⟨rfl, hrest⟩
    | _ => simp [sign] at hsign
  | level, fields name members abridged, second, rest, rest', h, h', hend, hend', heq => by
    obtain ⟨hname, hsign⟩ := name_sign_eq h h' hend hend' heq
    cases second with
    | fields name' members' abridged' =>
      obtain rfl : name = name' := hname
      simp only [prettyAt, List.append_assoc, List.append_cancel_left_eq] at heq
      obtain ⟨rfl, rfl, hrest⟩ := prettyMembers_append_inj level members members' h.2 h'.2 heq
      exact ⟨rfl, hrest⟩
    | _ => simp [sign] at hsign
  | level, list items, second, rest, rest', h, h', hend, hend', heq => by
    obtain ⟨-, hsign⟩ := name_sign_eq h h' hend hend' heq
    cases second with
    | list items' =>
      -- Only an empty list is closed on the line on which it is opened.
      cases items with
      | nil =>
        cases items' with
        | nil => exact ⟨rfl, List.append_cancel_left heq⟩
        | cons => simp [prettyAt, prettyItems, newLine] at heq
      | cons item items =>
        cases items' with
        | nil => simp [prettyAt, prettyItems, newLine] at heq
        | cons item' items' =>
          simp only [prettyAt, List.append_assoc, List.append_cancel_left_eq] at heq
          obtain ⟨hitems, hrest⟩ := prettyItems_append_inj level (item :: items) (item' :: items') (by decide) h h'
            heq
          exact ⟨congrArg _ hitems, hrest⟩
    | _ => simp [sign] at hsign

/-- What is written for items tells them and where they end: in front of a sign on a line that is indented less. -/
theorem prettyItems_append_inj : ∀ (level : Nat) (items items' : List Dump) {close : Char} {rest rest' : List Char},
    close ≠ ' ' → ItemsWellNamed items → ItemsWellNamed items' →
    prettyItems (level + 1) items ++ (newLine level ++ close :: rest) =
      prettyItems (level + 1) items' ++ (newLine level ++ close :: rest') → items = items' ∧ rest = rest'
  | level, [], items', close, rest, rest', hclose, h, h', heq => by
    cases items' with
    | nil =>
      have hclosed : newLine level ++ close :: rest = newLine level ++ close :: rest' := heq
      exact ⟨rfl, (List.cons.inj (List.append_cancel_left hclosed)).2⟩
    | cons item' items' =>
      simp only [prettyItems, List.append_assoc] at heq
      exact absurd heq (newLine_ne hclose)
  | level, item :: items, items', close, rest, rest', hclose, h, h', heq => by
    cases items' with
    | nil =>
      simp only [prettyItems, List.append_assoc] at heq
      exact absurd heq.symm (newLine_ne hclose)
    | cons item' items' =>
      simp only [prettyItems, List.append_assoc, List.append_cancel_left_eq] at heq
      -- An item ends in front of its comma.
      obtain ⟨rfl, hmore⟩ := prettyAt_append_inj (level + 1) item item' h.1 h'.1 (by simp [Ends])
        (by simp [Ends]) heq
      obtain ⟨rfl, hrest⟩ := prettyItems_append_inj level items items' hclose h.2 h'.2 (List.cons.inj hmore).2
      exact ⟨rfl, hrest⟩

/-- What is written for members tells them, whether more are left out, and where they end. -/
theorem prettyMembers_append_inj : ∀ (level : Nat) (members members' : List (String × Dump))
    {abridged abridged' : Bool} {rest rest' : List Char}, MembersWellNamed members → MembersWellNamed members' →
    prettyMembers (level + 1) members ++ closing level abridged rest =
      prettyMembers (level + 1) members' ++ closing level abridged' rest' →
    members = members' ∧ abridged = abridged' ∧ rest = rest'
  | level, [], members', abridged, abridged', rest, rest', h, h', heq => by
    cases members' with
    | nil => exact ⟨rfl, closing_inj heq⟩
    | cons member' members' =>
      simp only [prettyMembers, List.append_assoc, List.cons_append] at heq
      exact absurd heq (closing_ne h'.1)
  | level, (name, value) :: members, members', abridged, abridged', rest, rest', h, h', heq => by
    cases members' with
    | nil =>
      simp only [prettyMembers, List.append_assoc, List.cons_append] at heq
      exact absurd heq.symm (closing_ne h.1)
    | cons member' members' =>
      obtain ⟨name', value'⟩ := member'
      simp only [prettyMembers, List.append_assoc, List.append_cancel_left_eq] at heq
      -- The name ends at the colon, and the value in front of its comma.
      obtain ⟨rfl, hvalue⟩ := h.1.append_inj h'.1 (by simp) (by simp) heq
      obtain ⟨rfl, hmore⟩ := prettyAt_append_inj (level + 1) value value' h.2.1 h'.2.1 (by simp [Ends])
        (by simp [Ends]) (List.append_cancel_left hvalue)
      obtain ⟨rfl, hrest⟩ := prettyMembers_append_inj level members members' h.2.2 h'.2.2 (List.cons.inj hmore).2
      exact ⟨rfl, hrest⟩

end

/-- No two dumps have the same text. -/
theorem pretty_inj (h : first.WellNamed) (h' : second.WellNamed) (heq : first.pretty = second.pretty) :
    first = second := by
  have htext : prettyAt 0 first ++ [] = prettyAt 0 second ++ [] :=
    congrArg (· ++ []) (String.ofList_injective heq)
  exact (prettyAt_append_inj 0 first second h h' (by simp [Ends]) (by simp [Ends]) htext).1

end DotLang.Dump
