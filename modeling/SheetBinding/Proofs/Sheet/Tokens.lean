import SheetBinding.Proofs.Sheet.Placement

/-!
# The tokens that a reading takes

A sheet, a rule and a setting are read by three procedures that call each other.
Underneath all three read tokens, and they decide what token may come next by
the last one alone: after a name comes a colon, after a semicolon a name or a
closing brace. So there is a plainer account of a reading, as a walk through the
text that knows nothing but the kind of the last token (`Reading.run`).

The table of what may follow a token (`Terminal.followers`) is one for all
readings, and says too much for two of them: behind a block it looks for another
selector, and behind a setting for another name or a brace, also where only one
block or one setting is wanted. Whether the text must be over is a question of
its own (`Reading.mustEnd`).

`Reading.stop?_eq_some` says that the two accounts agree: where a procedure
gives up, it has read the tokens of the walk, and gives up at what the walk
leaves.
-/

namespace SheetBinding

open Text

namespace Grammar

/-- A token where it stands in a text, with the gap before it. -/
structure Token where
  gap : List Char
  kind : Terminal
  text : List Char
  deriving DecidableEq, Repr

/-- The text that tokens were read from. -/
def written (ts : List Token) : List Char :=
  ts.flatMap fun t => t.gap ++ t.text

/-- The kinds of tokens that may come after a token of some kind, whatever is
read. -/
def Terminal.followers : Terminal → List Terminal
  | selector => [openBrace]
  | openBrace => [closeBrace, name]
  | closeBrace => [selector]
  | name => [colon]
  | colon => [value]
  | value => [semicolon]
  | semicolon => [closeBrace, name]

/-- The first token of a text, if it is of one of some kinds, and what is left
behind it. -/
def token? (kinds : List Terminal) (cs : List Char) :
    Option (Token × List Char) :=
  kinds.findSome? fun kind =>
    (kind.take? (skipGap cs)).map fun (text, left) =>
      (⟨cs.takeWhile isGap, kind, text⟩, left)

variable {kinds : List Terminal} {cs left : List Char} {t : Token}

theorem token?_cons (kind : Terminal) (kinds : List Terminal) (cs : List Char) :
    token? (kind :: kinds) cs = (token? [kind] cs).or (token? kinds cs) := by
  rw [token?, token?, token?, List.findSome?_cons, List.findSome?_singleton]
  split
  · next h => rw [h, Option.some_or]
  · next h => rw [h, Option.none_or]

theorem token?_eq_some (h : token? kinds cs = some (t, left)) :
    t.kind ∈ kinds ∧ Gap t.gap ∧ t.kind.Language t.text ∧
      cs = t.gap ++ (t.text ++ left) := by
  obtain ⟨kind, hkind, h⟩ := List.exists_of_findSome?_eq_some h
  obtain ⟨⟨text, left'⟩, htake, he⟩ := Option.map_eq_some_iff.1 h
  cases he
  refine ⟨hkind, fun c hc => List.mem_takeWhile_imp hc,
    kind.language_of_take? htake, ?_⟩
  rw [(kind.append_of_take? htake).2]
  exact List.takeWhile_append_dropWhile.symm

/-- A token leaves less than there was. -/
theorem length_lt_of_token? (h : token? kinds cs = some (t, left)) :
    left.length < cs.length := by
  obtain ⟨kind, -, h⟩ := List.exists_of_findSome?_eq_some h
  obtain ⟨⟨text, left'⟩, htake, he⟩ := Option.map_eq_some_iff.1 h
  cases he
  have hless := kind.length_lt_of_take? htake
  have hskip := (List.dropWhile_suffix isGap (l := cs)).length_le
  rw [skipGap] at hless
  omega

/-- Reading a token finds it, and remembers where it begins. -/
theorem token?_of_read {kind : Terminal} {c d : Cursor} {x : String}
    (h : read kind c = .ok (x, d)) :
    ∃ t, token? [kind] c.left = some (t, d.left) ∧ t.kind = kind ∧
      d.lastToken = t.text ++ d.left := by
  rw [read] at h
  split at h
  · next text left htake =>
      cases h
      refine ⟨⟨c.left.takeWhile isGap, kind, text⟩, ?_, rfl, ?_⟩
      · rw [token?, List.findSome?_singleton, htake]
        rfl
      · exact (kind.append_of_take? htake).2.symm
  · cases h

theorem token?_of_read_error {kind : Terminal} {c : Cursor} {stop : Stop}
    (h : read kind c = .error stop) : token? [kind] c.left = none ∧
      stop = c.stop (some kind) := by
  rw [read] at h
  split at h
  · cases h
  · next htake =>
      cases h
      refine ⟨?_, rfl⟩
      rw [token?, List.findSome?_singleton, htake]
      rfl

end Grammar

open Grammar

namespace Reading

/-! ## The walk -/

/-- The kinds of tokens that are looked for behind the last one, or where the
text begins. -/
def sought (r : Reading) : Option Terminal → List Terminal
  | some last => last.followers
  | none =>
    match r with
    | sheet | rule => [.selector]
    | setting => [.name]

/-- Whether the text must be over behind the last token. -/
def mustEnd : Reading → Option Terminal → Bool
  | rule, some .closeBrace => true
  | setting, some .semicolon => true
  | _, _ => false

/-- Reads tokens as long as there are tokens of the kinds that are looked for:
the tokens, and what is left behind the last of them. -/
def run (r : Reading) (last : Option Terminal) (cs : List Char) :
    List Token × List Char :=
  if r.mustEnd last then ([], cs)
  else
    match _h : token? (r.sought last) cs with
    | none => ([], cs)
    | some (t, left) =>
      let more := r.run (some t.kind) left
      (t :: more.1, more.2)
termination_by cs.length
decreasing_by exact length_lt_of_token? _h

/-- The walk cannot go on: no token may follow the last one, or none that is
looked for does. -/
def Halts (r : Reading) (last : Option Terminal) (cs : List Char) : Prop :=
  r.mustEnd last = true ∨ token? (r.sought last) cs = none

/-- The walk from one place to another, the last token being given at both. -/
inductive Steps (r : Reading) :
    Option Terminal → Cursor → List Token → Option Terminal → Cursor →
      Prop where
  | refl (last : Option Terminal) (c : Cursor) : Steps r last c [] last c
  | token {last next : Option Terminal} {c d e : Cursor} {t : Token}
      {ts : List Token} :
      r.mustEnd last = false → token? (r.sought last) c.left = some
        (t, d.left) → d.lastToken = t.text ++ d.left →
        Steps r (some t.kind) d ts next e → Steps r last c (t :: ts) next e

variable {r : Reading} {last mid next : Option Terminal} {c d e : Cursor}
  {ts us : List Token}

theorem Steps.trans (h : r.Steps last c ts mid d)
    (h' : r.Steps mid d us next e) :
    r.Steps last c (ts ++ us) next e := by
  induction h with
  | refl => exact h'
  | token hend htoken hlast _ ih => exact .token hend htoken hlast (ih h')

theorem Steps.written_append (h : r.Steps last c ts next d) :
    c.left = written ts ++ d.left := by
  induction h with
  | refl => rfl
  | @token last next c d e t ts _ htoken _ _ ih =>
      rw [(token?_eq_some htoken).2.2.2, ih, written, written,
        List.flatMap_cons]
      simp only [List.append_assoc]

/-- Either no token has been read, or the last one begins where the cursor
says. -/
theorem Steps.lastToken (h : r.Steps last c ts next d) :
    ts = [] ∧ next = last ∧ d = c ∨
      ∃ front t, ts = front ++ [t] ∧ next = some t.kind ∧
        d.lastToken = t.text ++ d.left := by
  induction h with
  | refl => exact .inl ⟨rfl, rfl, rfl⟩
  | @token last next c d e t ts _ _ hlast _ ih =>
      rcases ih with ⟨rfl, rfl, rfl⟩ | ⟨front, u, rfl, hnext, hu⟩
      · exact .inr ⟨[], t, rfl, rfl, hlast⟩
      · exact .inr ⟨t :: front, u, rfl, hnext, hu⟩

theorem run_of_halts {cs : List Char} (h : r.Halts last cs) :
    r.run last cs = ([], cs) := by
  rw [run]
  rcases h with h | h
  · rw [if_pos h]
  · split
    · rfl
    · split
      · rfl
      · next hsome => rw [h] at hsome; cases hsome

theorem run_of_token? {cs left : List Char} {t : Token}
    (hend : r.mustEnd last = false)
    (h : token? (r.sought last) cs = some (t, left)) :
    r.run last cs =
      (t :: (r.run (some t.kind) left).1, (r.run (some t.kind) left).2) := by
  rw [run, hend, if_neg Bool.false_ne_true]
  split
  · next hnone => rw [h] at hnone; cases hnone
  · next hsome =>
      rw [h] at hsome
      cases hsome
      rfl

theorem run_of_steps (h : r.Steps last c ts next d)
    (hhalts : r.Halts next d.left) :
    r.run last c.left = (ts, d.left) := by
  induction h with
  | refl => exact run_of_halts hhalts
  | token hend htoken _ _ ih => rw [run_of_token? hend htoken, ih hhalts]

/-! ## The procedures walk -/

/-- Whether the last token lies inside a setting, and does not end it. -/
def insideSetting : Option Terminal → Bool
  | some .name | some .colon | some .value => true
  | _ => false

/-- A procedure gives up where the walk halts, and tells rightly whether that is
in a setting. -/
def StopsAt (r : Reading) (last : Option Terminal) (c : Cursor) (stop : Stop) :
    Prop :=
  ∃ ts next d awaited, r.Steps last c ts next d ∧ r.Halts next d.left ∧
    stop = d.stop awaited ∧ stop.insideSetting = insideSetting next

/-- A procedure walks to a token of the kind it ends with, or gives up on the
way. -/
def Walks {α : Type} (r : Reading) (last : Option Terminal) (c : Cursor)
    (next : Terminal) :
    Except Stop (α × Cursor) → Prop
  | .ok (_, d) => ∃ ts, r.Steps last c ts (some next) d
  | .error stop => r.StopsAt last c stop

theorem StopsAt.after {stop : Stop} (h : r.Steps last c ts mid d)
    (h' : r.StopsAt mid d stop) :
    r.StopsAt last c stop := by
  obtain ⟨us, next, e, awaited, hsteps, hhalts, hstop⟩ := h'
  exact ⟨ts ++ us, next, e, awaited, h.trans hsteps, hhalts, hstop⟩

theorem Walks.after {α : Type} {kind : Terminal} {x : Except Stop (α × Cursor)}
    (h : r.Steps last c ts mid d) (h' : r.Walks mid d kind x) : r.Walks last c
      kind x := by
  rcases x with stop | ⟨a, e⟩
  · exact StopsAt.after h h'
  · obtain ⟨us, hsteps⟩ := h'
    exact ⟨ts ++ us, h.trans hsteps⟩

theorem Walks.bind {α β : Type} {kind kind' : Terminal}
    {x : Except Stop (α × Cursor)} {f : α × Cursor → Except Stop (β × Cursor)}
    (hx : r.Walks last c kind x)
    (hf : ∀ a d, r.Walks (some kind) d kind' (f (a, d))) :
    r.Walks last c kind' (x >>= f) := by
  rcases x with stop | ⟨a, d⟩
  · exact hx
  · obtain ⟨ts, hsteps⟩ := hx
    exact .after hsteps (hf a d)

theorem Walks.map {α β : Type} {kind : Terminal} {x : Except Stop (α × Cursor)}
    (hx : r.Walks last c kind x) (f : α → β) :
    r.Walks last c kind (x.map fun y => (f y.1, y.2)) := by
  rcases x with stop | ⟨a, d⟩ <;> exact hx

/-- A token is read where only its kind is looked for, or no other kind is
there. -/
theorem walks_read {kind : Terminal} (hend : r.mustEnd last = false)
    (hsought : token? (r.sought last) c.left = token? [kind] c.left)
    (hinside : (Stop.mk (some kind) []).insideSetting = insideSetting last) :
    r.Walks last c kind (read kind c) := by
  cases h : read kind c with
  | error stop =>
      obtain ⟨hnone, rfl⟩ := token?_of_read_error h
      refine ⟨[], last, c, some kind, .refl last c, .inr (hsought.trans hnone),
        rfl, ?_⟩
      rw [← hinside, Cursor.stop]
      split <;> rfl
  | ok y =>
      obtain ⟨t, ht, rfl, hlast⟩ := token?_of_read h
      exact ⟨[t], .token hend (hsought.trans ht) hlast (.refl _ _)⟩

theorem mustEnd_eq_false {kind : Terminal} (h : kind ≠ .closeBrace)
    (h' : kind ≠ .semicolon) (r : Reading) : r.mustEnd (some kind) = false := by
  cases r <;> cases kind <;> first | rfl | contradiction

theorem walks_setting (hend : r.mustEnd last = false)
    (hsought : token? (r.sought last) c.left = token? [.name] c.left)
    (hinside : insideSetting last = false) : r.Walks last c .semicolon
      (Grammar.setting c) := by
  refine (walks_read hend hsought hinside.symm).bind fun name c => ?_
  refine (walks_read (mustEnd_eq_false (by decide) (by decide) r) rfl rfl).bind
    fun _ c => ?_
  refine (walks_read (mustEnd_eq_false (by decide) (by decide) r) rfl rfl).bind
    fun value c => ?_
  exact (walks_read (mustEnd_eq_false (by decide) (by decide) r) rfl rfl).bind
    fun _ c => ⟨[], .refl _ _⟩

/-- Inside a block a setting may begin or the block end. -/
def InBody (last : Option Terminal) : Prop :=
  last = some .openBrace ∨ last = some .semicolon

theorem walks_settings (hr : r ≠ setting) (hlast : InBody last) :
    r.Walks last c .closeBrace (settings c) := by
  have hbody : ∀ {last}, InBody last → r.mustEnd last = false ∧
      insideSetting last = false ∧ r.sought last = [.closeBrace, .name] := by
    rintro _ (rfl | rfl)
    · exact ⟨mustEnd_eq_false (by decide) (by decide) r, rfl, rfl⟩
    · refine ⟨?_, rfl, rfl⟩
      cases r with
      | sheet | rule => rfl
      | setting => exact absurd rfl hr
  fun_induction settings c generalizing last with
  | case1 c x d hclose =>
      obtain ⟨hend, -, hsought⟩ := hbody hlast
      obtain ⟨t, ht, hkind, hstart⟩ := token?_of_read hclose
      have htoken : token? (r.sought last) c.left = some (t, d.left) := by
        rw [hsought, token?_cons, ht, Option.some_or]
      refine ⟨[t], .token hend htoken hstart ?_⟩
      rw [hkind]
      exact .refl _ _
  | case2 c _ hclose stop hset =>
      obtain ⟨hend, hinside, hsought⟩ := hbody hlast
      have hname : token? (r.sought last) c.left = token? [.name] c.left := by
        rw [hsought, token?_cons, (token?_of_read_error hclose).1,
          Option.none_or]
      have hstop := walks_setting hend hname hinside
      rwa [hset] at hstop
  | case3 c _ hclose pair d hset ih =>
      obtain ⟨hend, hinside, hsought⟩ := hbody hlast
      have hname : token? (r.sought last) c.left = token? [.name] c.left := by
        rw [hsought, token?_cons, (token?_of_read_error hclose).1,
          Option.none_or]
      have hwalk := walks_setting hend hname hinside
      rw [hset] at hwalk
      obtain ⟨ts, hsteps⟩ := hwalk
      exact .after hsteps ((ih (.inr rfl)).map (pair :: ·))

theorem walks_block (hr : r ≠ setting) (hend : r.mustEnd last = false)
    (hsought : r.sought last = [.selector])
      (hinside : insideSetting last = false) :
    r.Walks last c .closeBrace (block c) := by
  have hselector : r.Walks last c .selector (read .selector c) :=
    walks_read hend (by rw [hsought]) hinside.symm
  refine hselector.bind fun selector c => ?_
  refine (walks_read (mustEnd_eq_false (by decide) (by decide) r) rfl rfl).bind
    fun _ c => ?_
  exact (walks_settings hr (.inl rfl)).bind fun pairs c => ⟨[], .refl _ _⟩

theorem stopsAt_blocks {stop : Stop}
    (hlast : last = none ∨ last = some .closeBrace)
    (h : blocks c = .error stop) : sheet.StopsAt last c stop := by
  have hblock : ∀ {last c}, last = none ∨ last = some .closeBrace →
      sheet.Walks last c .closeBrace (block c) := by
    rintro _ c (rfl | rfl) <;> exact walks_block (by decide) rfl rfl rfl
  fun_induction blocks c generalizing last with
  | case1 => cases h
  | case2 c _ stop' herror =>
      cases h
      have hstop := hblock (c := c) hlast
      rwa [herror] at hstop
  | case3 c _ b d hok ih =>
      have hwalk := hblock (c := c) hlast
      rw [hok] at hwalk
      obtain ⟨ts, hsteps⟩ := hwalk
      exact .after hsteps (ih (.inr rfl) (map_eq_error_iff.1 h))

/-- Where something is left behind a block or a setting that should be the only
one, the walk halts. -/
theorem stopsAt_complete {α : Type} {kind : Terminal}
    {x : Except Stop (α × Cursor)} {stop : Stop} (hx : r.Walks last c kind x)
    (hend : r.mustEnd (some kind) = true)
    (hinside : insideSetting (some kind) = false)
    (h : complete x = .error stop) :
    r.StopsAt last c stop := by
  rcases x with stop' | ⟨a, d⟩
  · cases h
    exact hx
  · obtain ⟨ts, hsteps⟩ := hx
    rw [complete] at h
    split at h
    · cases h
    · cases h
      refine ⟨ts, some kind, d, none, hsteps, .inl hend, rfl, ?_⟩
      rw [hinside, Cursor.stop]
      split <;> rfl

/-- A text that has not the right shape is left where the walk through it
halts. -/
theorem stop?_eq_some {text : List Char} {stop : Stop}
    (h : r.stop? text = some stop) :
    ∃ ts next d awaited, r.run none text = (ts, d.left) ∧
      r.Steps none (.start text) ts next d ∧
      r.Halts next d.left ∧ stop = d.stop awaited ∧
        stop.insideSetting = insideSetting next := by
  have hstops : r.StopsAt none (.start text) stop := by
    cases r with
    | sheet => exact stopsAt_blocks (.inl rfl) (errorOf?_eq_some_iff.1 h)
    | rule =>
        exact stopsAt_complete (walks_block (by decide) rfl rfl rfl) rfl rfl
          (errorOf?_eq_some_iff.1 h)
    | setting =>
        exact stopsAt_complete (walks_setting rfl rfl rfl) rfl rfl
          (errorOf?_eq_some_iff.1 h)
  obtain ⟨ts, next, d, awaited, hsteps, hhalts, hstop, hinside⟩ := hstops
  exact ⟨ts, next, d, awaited, run_of_steps hsteps hhalts, hsteps, hhalts,
    hstop, hinside⟩

end Reading

end SheetBinding
