import PathQuery.Json.Reader
import PathQuery.Proofs.Json.Parts

/-!
# Numbers that are read

A reader makes numbers only where a word spells one, and gives such a word no value unless that is an
integer of 64 bits or a finite double. From there on values are only put together.

* `Json.number?_inRange` and `Json.tokens?_inRange` — the numbers of a text.
* `Json.Building.step?_inRange` — one token leaves only such numbers in what has been built so far.
* `Json.inRange_of_read?` — the value of a text has numbers of the format only.
-/

namespace PathQuery.Json

/-! ### Tokens -/

/-- The value of a token, if it has one, is in range. -/
def Token.InRange (token : Token) : Prop :=
  ∀ v, token = .word (some v) → v.InRange

theorem numberValue?_inRange {n : Numeral} {v : Json} (h : numberValue? n = some v) : v.InRange := by
  unfold numberValue? at h
  dsimp only at h
  generalize (if n.negative then -(digitsValue n.whole : Int) else digitsValue n.whole) = value at h
  split at h
  · next hint =>
    simp only [Bool.and_eq_true, decide_eq_true_eq] at hint
    rw [← Option.some.inj h]
    exact inRange_int_iff.mpr ⟨hint.1.1.2, hint.1.2⟩
  · split at h
    · next hfinite =>
      rw [← Option.some.inj h]
      exact inRange_float_iff.mpr hfinite
    · cases h

theorem number?_inRange {word : List Char} {token : Token} (h : number? word = some token) :
    token.InRange := by
  unfold number? at h
  dsimp only at h
  obtain ⟨n, -, rfl⟩ := Option.map_eq_some_iff.mp h
  intro v hv
  exact numberValue?_inRange (Token.word.inj hv)

theorem word?_inRange {word : List Char} {token : Token} (h : word? word = some token) :
    token.InRange := by
  unfold word? at h
  split at h
  · cases h
    rintro v ⟨⟩
    exact inRange_null
  · cases h
    rintro v ⟨⟩
    exact inRange_bool true
  · cases h
    rintro v ⟨⟩
    exact inRange_bool false
  · exact number?_inRange h

theorem punctuation?_inRange {c : Char} {token : Token} (h : punctuation? c = some token) :
    token.InRange := by
  unfold punctuation? at h
  split at h <;> cases h <;> exact fun v hv => nomatch hv

/-- The tokens that are read have numbers of the format if those before them have. -/
theorem tokens?_inRange {read tokens : List Token} {cs : List Char}
    (hread : ∀ token ∈ read, token.InRange) (h : tokens? read cs = some tokens) :
    ∀ token ∈ tokens, token.InRange := by
  fun_induction tokens? read cs with
  | case1 read =>
    rw [← Option.some.inj h]
    exact fun token htoken => hread token (List.mem_reverse.mp htoken)
  | case2 read c cs hblank ih => exact ih hread h
  | case3 => cases h
  | case4 read cs body rest hbody hlength hquote ih =>
    have htext : Token.InRange (.text ((characters? [] body).map String.ofList)) :=
      fun v hv => nomatch hv
    exact ih (List.forall_mem_cons.mpr ⟨htext, hread⟩) h
  | case5 read c cs hblank hquote token htoken ih =>
    exact ih (List.forall_mem_cons.mpr ⟨punctuation?_inRange htoken, hread⟩) h
  | case6 => cases h
  | case7 read c cs hblank hquote hpunctuation token htoken hlength ih =>
    exact ih (List.forall_mem_cons.mpr ⟨word?_inRange htoken, hread⟩) h

/-! ### Structure -/

/-- Every scalar in a draft that has a value has one in range. -/
inductive Draft.InRange : Draft → Prop
  | scalar {value : Option Json} : (∀ v, value = some v → v.InRange) → InRange (.scalar value)
  | array {elements : List Draft} : (∀ d ∈ elements, InRange d) → InRange (.array elements)
  | object {members : List (Option String × Draft)} :
      (∀ m ∈ members, InRange m.2) → InRange (.object members)

def Container.InRange : Container → Prop
  | .array elements => ∀ d ∈ elements, d.InRange
  | .object members _ => ∀ m ∈ members, m.2.InRange

namespace Building

/-- All that has been read so far is in range. -/
def InRange : Building → Prop
  | .value outer | .element outer => ∀ c ∈ outer, c.InRange
  | .name members outer | .colon members _ outer =>
      (∀ m ∈ members, m.2.InRange) ∧ ∀ c ∈ outer, c.InRange
  | .done v outer => v.InRange ∧ ∀ c ∈ outer, c.InRange

theorem open?_inRange {outer : List Container} (houter : ∀ c ∈ outer, c.InRange) {token : Token}
    (htoken : token.InRange) {b : Building} (h : open? outer token = some b) : b.InRange := by
  unfold open? at h
  split at h
  · next s =>
    cases h
    refine ⟨.scalar fun v hv => ?_, houter⟩
    obtain ⟨text, -, rfl⟩ := Option.map_eq_some_iff.mp hv
    exact inRange_string text
  · next value =>
    cases h
    exact ⟨.scalar fun v hv => htoken v (congrArg Token.word hv), houter⟩
  · cases h
    exact houter
  · cases h
    exact ⟨List.forall_mem_nil _, houter⟩
  · cases h

/-- **One more token keeps what has been read in range.** -/
theorem step?_inRange {b b' : Building} (hb : b.InRange) {token : Token} (htoken : token.InRange)
    (h : b.step? token = some b') : b'.InRange := by
  unfold step? at h
  split at h
  · exact open?_inRange hb htoken h
  · cases h
    exact ⟨.array (List.forall_mem_nil _), hb⟩
  · have hnew : Container.InRange (.array []) := List.forall_mem_nil _
    exact open?_inRange (List.forall_mem_cons.mpr ⟨hnew, hb⟩) htoken h
  · cases h
    exact ⟨.object (List.forall_mem_nil _), hb.2⟩
  · cases h
    exact hb
  · cases h
    exact List.forall_mem_cons.mpr hb
  · next v vs outer =>
    cases h
    obtain ⟨hvs, houter⟩ := List.forall_mem_cons.mp hb.2
    have hvalues : Container.InRange (.array (v :: vs)) := List.forall_mem_cons.mpr ⟨hb.1, hvs⟩
    exact List.forall_mem_cons.mpr ⟨hvalues, houter⟩
  · next v vs outer =>
    cases h
    obtain ⟨hvs, houter⟩ := List.forall_mem_cons.mp hb.2
    have hvalues : ∀ d ∈ v :: vs, d.InRange := List.forall_mem_cons.mpr ⟨hb.1, hvs⟩
    exact ⟨.array fun d hd => hvalues d (List.mem_reverse.mp hd), houter⟩
  · next v ms key outer =>
    cases h
    obtain ⟨hms, houter⟩ := List.forall_mem_cons.mp hb.2
    exact ⟨List.forall_mem_cons.mpr ⟨hb.1, hms⟩, houter⟩
  · next v ms key outer =>
    cases h
    obtain ⟨hms, houter⟩ := List.forall_mem_cons.mp hb.2
    have hmembers : ∀ m ∈ (key, v) :: ms, m.2.InRange := List.forall_mem_cons.mpr ⟨hb.1, hms⟩
    exact ⟨.object fun m hm => hmembers m (List.mem_reverse.mp hm), houter⟩
  · cases h

theorem foldlM_inRange {tokens : List Token} (htokens : ∀ token ∈ tokens, token.InRange)
    {b b' : Building} (hb : b.InRange) (h : tokens.foldlM step? b = some b') : b'.InRange := by
  induction tokens generalizing b with
  | nil =>
    cases h
    exact hb
  | cons token tokens ih =>
    obtain ⟨htoken, hrest⟩ := List.forall_mem_cons.mp htokens
    rw [List.foldlM_cons] at h
    obtain ⟨next, hstep, hfold⟩ := Option.bind_eq_some_iff.mp h
    exact ih hrest (step?_inRange hb htoken hstep) hfold

end Building

theorem Draft.inRange_of_ofText? {text : String} {d : Draft} (h : ofText? text = some d) :
    d.InRange := by
  obtain ⟨tokens, htokens, h⟩ := Option.bind_eq_some_iff.mp h
  obtain ⟨last, hlast, hfinished⟩ := Option.bind_eq_some_iff.mp h
  have hstart : (Building.value []).InRange := List.forall_mem_nil _
  have hinRange : last.InRange :=
    Building.foldlM_inRange (tokens?_inRange (List.forall_mem_nil _) htokens) hstart hlast
  unfold Building.finished? at hfinished
  split at hfinished
  · cases hfinished
    exact hinRange.1
  · cases hfinished

/-! ### Values -/

namespace Draft

theorem elementValues?_inRange {depth : Nat} {ds : List Draft} {vs : List Json}
    (hds : ∀ d ∈ ds, ∀ v, d.value? none depth = some v → v.InRange)
    (h : elementValues? none depth ds = some vs) : ∀ v ∈ vs, v.InRange := by
  induction ds generalizing vs with
  | nil =>
    cases h
    exact List.forall_mem_nil _
  | cons d ds ih =>
    obtain ⟨hd, hds⟩ := List.forall_mem_cons.mp hds
    obtain ⟨v, hv, h⟩ := Option.bind_eq_some_iff.mp h
    obtain ⟨rest, hrest, h⟩ := Option.bind_eq_some_iff.mp h
    cases h
    exact List.forall_mem_cons.mpr ⟨hd v hv, ih hds hrest⟩

theorem memberValues?_inRange {depth : Nat} {ds : List (Option String × Draft)}
    {ms : List (String × Json)}
    (hds : ∀ m ∈ ds, ∀ v, m.2.value? none depth = some v → v.InRange)
    (h : memberValues? none depth ds = some ms) : ∀ m ∈ ms, m.2.InRange := by
  induction ds generalizing ms with
  | nil =>
    cases h
    exact List.forall_mem_nil _
  | cons d ds ih =>
    obtain ⟨hd, hds⟩ := List.forall_mem_cons.mp hds
    obtain ⟨name, -, h⟩ := Option.bind_eq_some_iff.mp h
    obtain ⟨v, hv, h⟩ := Option.bind_eq_some_iff.mp h
    obtain ⟨rest, hrest, h⟩ := Option.bind_eq_some_iff.mp h
    cases h
    exact List.forall_mem_cons.mpr ⟨hd v hv, ih hds hrest⟩

/-- Nothing stands in for a part without a value, so that all numbers come from the draft. -/
theorem inRange_of_value? {d : Draft} (hd : d.InRange) {depth : Nat} {v : Json}
    (h : d.value? none depth = some v) : v.InRange := by
  induction hd generalizing depth v with
  | scalar hvalue =>
    rw [value?, Option.or_none] at h
    exact hvalue v h
  | array _ ih =>
    cases depth with
    | zero => cases h
    | succ depth =>
      rw [value?, Option.or_none] at h
      obtain ⟨vs, hvs, rfl⟩ := Option.map_eq_some_iff.mp h
      exact inRange_array_iff.mpr (elementValues?_inRange (fun d hd v hv => ih d hd hv) hvs)
  | object _ ih =>
    cases depth with
    | zero => cases h
    | succ depth =>
      rw [value?, Option.or_none] at h
      obtain ⟨ms, hms, rfl⟩ := Option.map_eq_some_iff.mp h
      exact inRange_object_iff.mpr (memberValues?_inRange (fun m hm v hv => ih m hm hv) hms)

end Draft

theorem distinctAll_eq_map (elements : List Json) : distinctAll elements = elements.map distinct := by
  induction elements with
  | nil => rfl
  | cons v vs ih => rw [distinctAll, ih, List.map_cons]

theorem distinctMembers_eq_map (members : List (String × Json)) :
    distinctMembers members = members.map fun m => (m.1, m.2.distinct) := by
  induction members with
  | nil => rfl
  | cons m ms ih => rw [distinctMembers, ih, List.map_cons]

/-- Repeated members are left out, but none is made up. -/
theorem InRange.distinct {v : Json} (h : v.InRange) : v.distinct.InRange := by
  induction v with
  | array elements ih =>
    rw [Json.distinct, distinctAll_eq_map, inRange_array_iff]
    intro w hw
    obtain ⟨v, hv, rfl⟩ := List.mem_map.mp hw
    exact ih v hv (inRange_array_iff.mp h v hv)
  | object members ih =>
    rw [Json.distinct, distinctMembers_eq_map, inRange_object_iff]
    intro m hm
    obtain ⟨source, hsource, rfl⟩ := List.mem_map.mp (Entries.mem_of_mem_ofList hm)
    exact ih source hsource (inRange_object_iff.mp h source hsource)
  | _ => exact h

/-- **Every number that is read is one of the format.** -/
theorem inRange_of_read? {text : String} {v : Json} (h : read? text = some v) : v.InRange := by
  obtain ⟨w, hw, rfl⟩ := Option.map_eq_some_iff.mp h
  obtain ⟨d, hd, hvalue⟩ := Option.bind_eq_some_iff.mp hw
  exact (Draft.inRange_of_value? (Draft.inRange_of_ofText? hd) hvalue).distinct

end PathQuery.Json
