import Mathlib.Data.List.Basic
import Mathlib.Data.Sum.Basic

/-!
# Incremental readers and how their input is split

Two views of a reader that consumes a stream delivered in chunks.

* A **reader** (`Reader`) is a deterministic machine of small moves. A move
  is decided by the input buffered so far, and once it is not `wait` more
  input never changes it (`Reader.stable`). Its runs grow with the input
  (`Run.grow`) and end in one place (`Settles.unique`).
* A **puller** (`Puller`) is the decoder a program has: one call either needs
  more input, hands up one item, or fails. A driver appends each chunk it
  reads and calls until more input is needed (`Puller.read`).

`Simulates` relates the two; a puller that simulates a reader gives the same
items, the same failure and the same observation for every split of the same
stream (`Simulates.split_irrelevant`). A puller whose items are
self-delimiting hands up exactly the items it was fed, in any split
(`Puller.read_items`).
-/

namespace Lib.Incremental

variable {σ τ β ω ε κ : Type}

/-! ## Readers -/

/-- One move of a reader on the input buffered so far. -/
inductive Move (τ ω : Type)
  | wait
  | take (count : Nat) (next : τ) (out : List ω)

/-- A reader whose moves are final: they consume buffered input only, and
more input does not change them. -/
structure Reader (τ β ω : Type) where
  move : τ → List β → Move τ ω
  bounded : ∀ {t b n t' o}, move t b = .take n t' o → n ≤ b.length
  stable : ∀ {t b n t' o}, move t b = .take n t' o →
    ∀ more, move t (b ++ more) = .take n t' o

namespace Reader

variable (r : Reader τ β ω)

/-- Any number of moves, with their outputs. -/
inductive Run : τ × List β → List ω → τ × List β → Prop
  | refl (c) : Run c [] c
  | step {t b n t' o os c} : r.move t b = .take n t' o →
      Run (t', b.drop n) os c → Run (t, b) (o ++ os) c

/-- The reader can do nothing before more input arrives. -/
def Waits (c : τ × List β) : Prop := r.move c.1 c.2 = .wait

/-- A run to the end. -/
def Settles (c : τ × List β) (os : List ω) (c' : τ × List β) : Prop :=
  r.Run c os c' ∧ r.Waits c'

variable {r}

theorem Run.trans {c₁ c₂ c₃ : τ × List β} {os os' : List ω}
    (first : r.Run c₁ os c₂) (second : r.Run c₂ os' c₃) :
    r.Run c₁ (os ++ os') c₃ := by
  induction first with
  | refl => exact second
  | step moved _ ih =>
      rw [List.append_assoc]
      exact .step moved (ih second)

/-- A single move as a run. -/
theorem Run.single {t t' : τ} {b : List β} {n : Nat} {o : List ω}
    (moved : r.move t b = .take n t' o) : r.Run (t, b) o (t', b.drop n) := by
  simpa using Run.step moved (.refl _)

/-- A run is still there when more input has arrived behind its buffer. -/
theorem Run.grow {c c' : τ × List β} {os : List ω} (run : r.Run c os c')
    (more : List β) : r.Run (c.1, c.2 ++ more) os (c'.1, c'.2 ++ more) := by
  induction run with
  | refl => exact .refl _
  | step moved _ ih =>
      refine .step (r.stable moved more) ?_
      rwa [List.drop_append_of_le_length (r.bounded moved)]

/-- Moves are deterministic, so a run that ends in waiting is the only one. -/
theorem Settles.unique {c c₁ c₂ : τ × List β} {os₁ os₂ : List ω}
    (one : r.Settles c os₁ c₁) (two : r.Settles c os₂ c₂) :
    os₁ = os₂ ∧ c₁ = c₂ := by
  obtain ⟨run, waits⟩ := one
  induction run generalizing os₂ c₂ with
  | refl =>
      cases two.1 with
      | refl => exact ⟨rfl, rfl⟩
      | step moved _ =>
          simp only [Waits] at waits
          rw [moved] at waits
          cases waits
  | step moved _ ih =>
      obtain ⟨run₂, waits₂⟩ := two
      cases run₂ with
      | refl =>
          simp only [Waits] at waits₂
          rw [moved] at waits₂
          cases waits₂
      | step moved₂ rest₂ =>
          rw [moved] at moved₂
          cases moved₂
          obtain ⟨outs, ends⟩ := ih ⟨rest₂, waits₂⟩ waits
          exact ⟨by rw [outs], ends⟩

end Reader

/-! ## Pullers -/

/-- What one call of a pull decoder answers, with its next state and what it
leaves of the buffer. -/
inductive Poll (σ β ω ε : Type)
  | need (s : σ) (rest : List β)
  | emit (o : ω) (s : σ) (rest : List β)
  | fail (e : ε) (s : σ) (rest : List β)

/-- A pull decoder. Handing up an item consumes input. -/
structure Puller (σ β ω ε : Type) where
  poll : σ → List β → Poll σ β ω ε
  progress : ∀ {s b o s' b'}, poll s b = .emit o s' b' → b'.length < b.length

/-- What a driver has after a series of calls: the items handed up, the
failure that ended it if any, the decoder and the buffer. -/
structure Drained (σ β ω ε : Type) where
  items : List ω
  error : Option ε
  state : σ
  rest : List β

namespace Puller

variable (p : Puller σ β ω ε)

/-- Calls until more input is needed or a call fails, at most `fuel` times. -/
def drainFuel : Nat → σ → List β → Option (Drained σ β ω ε)
  | 0, _, _ => none
  | fuel + 1, s, b =>
      match p.poll s b with
      | .need s' b' => some ⟨[], none, s', b'⟩
      | .fail e s' b' => some ⟨[], some e, s', b'⟩
      | .emit o s' b' =>
          (drainFuel fuel s' b').map fun d => { d with items := o :: d.items }

/-- Every item consumes input, so the buffer's length bounds the calls. -/
theorem drainFuel_isSome (fuel : Nat) (s : σ) (b : List β) (h : b.length < fuel) :
    (p.drainFuel fuel s b).isSome := by
  induction fuel generalizing s b with
  | zero => omega
  | succ fuel ih =>
      unfold drainFuel
      split
      · rfl
      · rfl
      · rename_i emitted
        have := p.progress emitted
        simpa using ih _ _ (by omega)

theorem drainFuel_more {fuel : Nat} {s : σ} {b : List β} {d : Drained σ β ω ε}
    (h : p.drainFuel fuel s b = some d) : p.drainFuel (fuel + 1) s b = some d := by
  induction fuel generalizing s b d with
  | zero => cases h
  | succ fuel ih =>
      unfold drainFuel at h ⊢
      split
      · rename_i polled
        simpa only [polled] using h
      · rename_i polled
        simpa only [polled] using h
      · rename_i polled
        simp only [polled, Option.map_eq_some_iff] at h ⊢
        obtain ⟨d', hd', rfl⟩ := h
        exact ⟨d', ih hd', rfl⟩

theorem drainFuel_mono {fuel fuel' : Nat} {s : σ} {b : List β} {d : Drained σ β ω ε}
    (h : p.drainFuel fuel s b = some d) (le : fuel ≤ fuel') :
    p.drainFuel fuel' s b = some d := by
  induction le with
  | refl => exact h
  | step _ ih => exact p.drainFuel_more ih

/-- Calls until more input is needed or a call fails. -/
def drain (s : σ) (b : List β) : Drained σ β ω ε :=
  (p.drainFuel (b.length + 1) s b).get (p.drainFuel_isSome _ s b (Nat.lt_succ_self _))

theorem drainFuel_eq_drain (s : σ) (b : List β) {fuel : Nat} (h : b.length < fuel) :
    p.drainFuel fuel s b = some (p.drain s b) := by
  have enough : p.drainFuel (b.length + 1) s b = some (p.drain s b) := by simp [drain]
  exact p.drainFuel_mono enough h

theorem drain_eq (s : σ) (b : List β) :
    p.drain s b = match p.poll s b with
      | .need s' b' => ⟨[], none, s', b'⟩
      | .fail e s' b' => ⟨[], some e, s', b'⟩
      | .emit o s' b' =>
          { p.drain s' b' with items := o :: (p.drain s' b').items } := by
  apply Option.some.inj
  rw [← p.drainFuel_eq_drain s b (Nat.lt_succ_self _), drainFuel]
  split
  · rfl
  · rfl
  · rename_i emitted
    rw [p.drainFuel_eq_drain _ _ (p.progress emitted)]
    rfl

/-- Reads the chunks in turn: each is appended to the buffer, which is then
drained. The first failure ends it. -/
def read (s : σ) (b : List β) : List (List β) → Drained σ β ω ε
  | [] => ⟨[], none, s, b⟩
  | chunk :: chunks =>
      let d := p.drain s (b ++ chunk)
      match d.error with
      | some _ => d
      | none =>
          let r := read d.state d.rest chunks
          { r with items := d.items ++ r.items }

/-! ### Self-delimiting items -/

/-- `item` is handed up whole as soon as it is buffered, whatever follows it,
and nothing happens before. -/
structure Delimits (s : σ) (bytes : List β) (item : ω) : Prop where
  whole : ∀ more, p.poll s (bytes ++ more) = .emit item s more
  partly : ∀ b, b <+: bytes → b ≠ bytes → p.poll s b = .need s b

/-- `b` is what may be left in the buffer in front of `items`: nothing if
there are none, else a proper start of the first. -/
def Partial (enc : ω → List β) (b : List β) : List ω → Prop
  | [] => b = []
  | i :: _ => b <+: enc i ∧ b ≠ enc i

variable {p}

theorem Delimits.ne_nil {s : σ} {bytes : List β} {item : ω}
    (h : p.Delimits s bytes item) : bytes ≠ [] := by
  rintro rfl
  have := p.progress (h.whole [])
  simp at this

theorem partial_nil {s : σ} {enc : ω → List β} {items : List ω}
    (delim : ∀ i ∈ items, p.Delimits s (enc i) i) : Partial enc [] items := by
  cases items with
  | nil => rfl
  | cons i _ =>
      exact ⟨List.nil_prefix, (delim i List.mem_cons_self).ne_nil.symm⟩

/-- Draining a buffer that holds the start of a stream of self-delimiting
items hands up the items that are complete and keeps a start of the next. -/
theorem drain_items {s : σ} {enc : ω → List β} (idle : p.poll s [] = .need s [])
    (b tail : List β) (items : List ω) (delim : ∀ i ∈ items, p.Delimits s (enc i) i)
    (split : b ++ tail = (items.map enc).flatten) :
    ∃ done left rest, items = done ++ left ∧ p.drain s b = ⟨done, none, s, rest⟩ ∧
      rest ++ tail = (left.map enc).flatten ∧ Partial enc rest left := by
  have stays : p.drain s [] = ⟨[], none, s, []⟩ := by rw [drain_eq, idle]
  induction items generalizing b with
  | nil =>
      obtain ⟨rfl, htail⟩ : b = [] ∧ tail = [] := by simpa using split
      exact ⟨[], [], [], rfl, stays, split, rfl⟩
  | cons i items ih =>
      simp only [List.map_cons, List.flatten_cons] at split
      have hi := delim i List.mem_cons_self
      have later : ∀ j ∈ items, p.Delimits s (enc j) j :=
        fun j hj => delim j (List.mem_cons_of_mem _ hj)
      have emits : ∀ rest, b = enc i ++ rest → rest ++ tail = (items.map enc).flatten →
          ∃ done left rest, i :: items = done ++ left ∧ p.drain s b = ⟨done, none, s, rest⟩ ∧
            rest ++ tail = (left.map enc).flatten ∧ Partial enc rest left := by
        intro rest hb hrest
        obtain ⟨done, left, kept, hitems, drained, hkept, part⟩ := ih rest later hrest
        have polled : p.poll s b = .emit i s rest := by rw [hb]; exact hi.whole rest
        refine ⟨i :: done, left, kept, by rw [hitems]; rfl, ?_, hkept, part⟩
        rw [drain_eq, polled]
        simp only
        rw [drained]
      rcases List.append_eq_append_iff.mp split with ⟨rest, henc, htail⟩ | ⟨rest, hb, hrest⟩
      · by_cases full : b = enc i
        · have whole : rest = [] := by
            have := congrArg List.length henc
            rw [full, List.length_append] at this
            exact List.length_eq_zero_iff.mp (by omega)
          exact emits [] (by simpa using full) (by simpa [whole] using htail)
        · have part : b <+: enc i := ⟨rest, henc.symm⟩
          have polled : p.poll s b = .need s b := hi.partly b part full
          refine ⟨[], i :: items, b, rfl, by rw [drain_eq, polled], by simpa using split, ?_⟩
          exact ⟨part, full⟩
      · exact emits rest hb hrest.symm

/-- A stream of self-delimiting items, read in any split, hands up exactly the
items and leaves nothing. -/
theorem read_items {s : σ} {enc : ω → List β} (idle : p.poll s [] = .need s [])
    (chunks : List (List β)) (b : List β) (items : List ω)
    (delim : ∀ i ∈ items, p.Delimits s (enc i) i) (part : Partial enc b items)
    (split : b ++ chunks.flatten = (items.map enc).flatten) :
    p.read s b chunks = ⟨items, none, s, []⟩ := by
  induction chunks generalizing b items with
  | nil =>
      cases items with
      | nil =>
          have empty : b = [] := part
          rw [empty, read]
      | cons i items =>
          -- a proper start of `i` cannot hold all of `i`
          have len := part.1.length_le
          have whole : b = enc i ++ (items.map enc).flatten := by simpa using split
          have same : b.length = (enc i).length := by
            rw [whole, List.length_append] at len ⊢
            omega
          exact absurd (part.1.eq_of_length same) part.2
  | cons chunk chunks ih =>
      obtain ⟨done, left, rest, hitems, drained, hrest, partRest⟩ :=
        drain_items idle (b ++ chunk) chunks.flatten items delim (by simpa using split)
      have tail := ih rest left (fun j hj => delim j (by simp [hitems, hj])) partRest hrest
      rw [read, drained]
      simp only [tail, hitems]

/-! ### Answers that more input does not change -/

/-- A puller that changes nothing while it waits, and whose other answers stay
what they are when more input is buffered. -/
structure Stable (p : Puller σ β ω ε) : Prop where
  need : ∀ {s b s' b'}, p.poll s b = .need s' b' → s' = s ∧ b' = b
  emit : ∀ {s b o s' b'}, p.poll s b = .emit o s' b' →
    ∀ more, p.poll s (b ++ more) = .emit o s' (b' ++ more)
  fail : ∀ {s b e s' b'}, p.poll s b = .fail e s' b' →
    ∀ more, p.poll s (b ++ more) = .fail e s' (b' ++ more)

variable (p) in
/-- Reads the chunks in turn, and keeps what is left of the stream: what a
failure leaves unread is part of it. -/
def readAll (s : σ) (b : List β) : List (List β) → Drained σ β ω ε
  | [] => p.drain s b
  | chunk :: chunks =>
      let d := p.drain s b
      match d.error with
      | some _ => { d with rest := d.rest ++ (chunk :: chunks).flatten }
      | none =>
          let r := readAll d.state (d.rest ++ chunk) chunks
          { r with items := d.items ++ r.items }

/-- Draining goes on where it stopped when more input arrives. -/
theorem Stable.drain_append (stable : p.Stable) (s : σ) (b more : List β) :
    p.drain s (b ++ more) = match (p.drain s b).error with
      | some _ => { p.drain s b with rest := (p.drain s b).rest ++ more }
      | none =>
          let d := p.drain s b
          { p.drain d.state (d.rest ++ more) with
            items := d.items ++ (p.drain d.state (d.rest ++ more)).items } := by
  induction len : b.length using Nat.strongRecOn generalizing s b with
  | ind n ih =>
      cases polled : p.poll s b with
      | need s' b' =>
          obtain ⟨rfl, rfl⟩ := stable.need polled
          have here : p.drain s' b' = ⟨[], none, s', b'⟩ := by rw [drain_eq, polled]
          rw [here]
          rfl
      | fail e s' b' =>
          have here : p.drain s b = ⟨[], some e, s', b'⟩ := by rw [drain_eq, polled]
          rw [here, drain_eq, stable.fail polled more]
      | emit o s' b' =>
          have shorter := p.progress polled
          have later := ih _ (by omega) s' b' rfl
          have here : p.drain s b = { p.drain s' b' with items := o :: (p.drain s' b').items } := by
            rw [drain_eq, polled]
          rw [here, drain_eq, stable.emit polled more]
          dsimp only
          rw [later]
          cases failed : (p.drain s' b').error with
          | some e =>
              dsimp only
              rw [failed]
          | none => rfl

/-- How a stream is split decides nothing, and nothing of it is lost. -/
theorem Stable.readAll_eq (stable : p.Stable) (s : σ) (b : List β) (chunks : List (List β)) :
    p.readAll s b chunks = p.drain s (b ++ chunks.flatten) := by
  induction chunks generalizing s b with
  | nil => rw [List.flatten_nil, List.append_nil, readAll]
  | cons chunk chunks ih =>
      rw [readAll, stable.drain_append]
      dsimp only
      cases failed : (p.drain s b).error with
      | some e => rfl
      | none =>
          dsimp only
          rw [ih, List.flatten_cons, List.append_assoc]

end Puller

/-! ## Pullers that run a reader -/

/-- The outputs a drained buffer stands for. -/
def Drained.outputs (d : Drained σ β ω ε) : List (ω ⊕ ε) :=
  d.items.map .inl ++ (d.error.map .inr).toList

/-- Every call of `p` is a run of `r`: to waiting when it needs more input, up
to one item when it hands one up, and into a state that only waits when it
fails. `obs` and `tally` observe the same value on related states. -/
structure Simulates (p : Puller σ β ω ε) (r : Reader τ β (ω ⊕ ε)) (Rel : σ → τ → Prop)
    (obs : σ → κ) (tally : τ → κ) : Prop where
  agree : ∀ {s t}, Rel s t → obs s = tally t
  need : ∀ {s t b s' b'}, Rel s t → p.poll s b = .need s' b' →
    ∃ t', Rel s' t' ∧ r.Settles (t, b) [] (t', b')
  emit : ∀ {s t b o s' b'}, Rel s t → p.poll s b = .emit o s' b' →
    ∃ t', Rel s' t' ∧ r.Run (t, b) [.inl o] (t', b')
  fail : ∀ {s t b e s' b'}, Rel s t → p.poll s b = .fail e s' b' →
    ∃ t' rest, obs s' = tally t' ∧ r.Run (t, b) [.inr e] (t', rest) ∧ ∀ x, r.Waits (t', x)

namespace Simulates

variable {p : Puller σ β ω ε} {r : Reader τ β (ω ⊕ ε)} {Rel : σ → τ → Prop}
  {obs : σ → κ} {tally : τ → κ}

/-- Draining a buffer runs the reader until it waits; after a failure it waits
whatever arrives. -/
theorem drain (sim : Simulates p r Rel obs tally) (s : σ) (t : τ) (b : List β)
    (rel : Rel s t) :
    ∃ t' rest, r.Settles (t, b) (p.drain s b).outputs (t', rest) ∧
      obs (p.drain s b).state = tally t' ∧
      ((p.drain s b).error = none → Rel (p.drain s b).state t' ∧ rest = (p.drain s b).rest) ∧
      ((p.drain s b).error ≠ none → ∀ x, r.Waits (t', x)) := by
  induction len : b.length using Nat.strongRecOn generalizing s t b with
  | ind n ih =>
      cases polled : p.poll s b with
      | need s' b' =>
          obtain ⟨t', rel', settles⟩ := sim.need rel polled
          rw [p.drain_eq, polled]
          exact ⟨t', b', settles, sim.agree rel', fun _ => ⟨rel', rfl⟩, by simp⟩
      | fail e s' b' =>
          obtain ⟨t', rest, same, run, stuck⟩ := sim.fail rel polled
          rw [p.drain_eq, polled]
          exact ⟨t', rest, ⟨run, stuck _⟩, same, by simp, fun _ => stuck⟩
      | emit o s' b' =>
          obtain ⟨t₁, rel₁, run⟩ := sim.emit rel polled
          have shorter := p.progress polled
          obtain ⟨t', rest, settles, same, cont, stuck⟩ := ih _ (by omega) s' t₁ b' rel₁ rfl
          rw [p.drain_eq, polled]
          exact ⟨t', rest, ⟨run.trans settles.1, settles.2⟩, same, cont, stuck⟩

/-- Reading chunks runs the reader over their concatenation until it waits. -/
theorem read (sim : Simulates p r Rel obs tally) (chunks : List (List β)) (s : σ) (t : τ)
    (b : List β) (rel : Rel s t) (waits : r.Waits (t, b)) :
    ∃ t' rest, r.Settles (t, b ++ chunks.flatten) (p.read s b chunks).outputs (t', rest) ∧
      obs (p.read s b chunks).state = tally t' := by
  induction chunks generalizing s t b with
  | nil =>
      refine ⟨t, b, ⟨?_, waits⟩, sim.agree rel⟩
      simpa [Puller.read, Drained.outputs] using Reader.Run.refl (r := r) (t, b)
  | cons chunk chunks ih =>
      obtain ⟨t₁, rest₁, settles, same, cont, stuck⟩ := sim.drain s t (b ++ chunk) rel
      have grown := settles.1.grow chunks.flatten
      simp only [List.append_assoc] at grown
      rw [Puller.read, List.flatten_cons]
      cases failed : (p.drain s (b ++ chunk)).error with
      | some e =>
          simp only
          exact ⟨t₁, _, ⟨grown, stuck (by simp [failed]) _⟩, same⟩
      | none =>
          simp only
          obtain ⟨rel₁, rfl⟩ := cont failed
          obtain ⟨t', rest, settles', same'⟩ :=
            ih (p.drain s (b ++ chunk)).state t₁ (p.drain s (b ++ chunk)).rest rel₁ settles.2
          refine ⟨t', rest, ⟨?_, settles'.2⟩, same'⟩
          have outs : (p.drain s (b ++ chunk)).outputs =
              (p.drain s (b ++ chunk)).items.map .inl := by
            simp [Drained.outputs, failed]
          rw [outs] at grown
          simpa [Drained.outputs] using grown.trans settles'.1

private theorem outputs_inj {d₁ d₂ : Drained σ β ω ε} (h : d₁.outputs = d₂.outputs) :
    d₁.items = d₂.items ∧ d₁.error = d₂.error := by
  have lefts : ∀ d : Drained σ β ω ε, d.outputs.filterMap Sum.getLeft? = d.items := by
    intro d
    cases hd : d.error <;> simp [Drained.outputs, hd, List.filterMap_map, Function.comp_def]
  have rights : ∀ d : Drained σ β ω ε,
      (d.outputs.filterMap Sum.getRight?).head? = d.error := by
    intro d
    cases hd : d.error <;> simp [Drained.outputs, hd, List.filterMap_map, Function.comp_def]
  exact ⟨by rw [← lefts d₁, h, lefts d₂], by rw [← rights d₁, h, rights d₂]⟩

/-- How a stream is split into chunks decides nothing: the items, the failure
and the observation are the same. -/
theorem split_irrelevant (sim : Simulates p r Rel obs tally) {s : σ} {t : τ} {b : List β}
    (rel : Rel s t) (waits : r.Waits (t, b)) {chunks₁ chunks₂ : List (List β)}
    (same : chunks₁.flatten = chunks₂.flatten) :
    (p.read s b chunks₁).items = (p.read s b chunks₂).items ∧
      (p.read s b chunks₁).error = (p.read s b chunks₂).error ∧
      obs (p.read s b chunks₁).state = obs (p.read s b chunks₂).state := by
  obtain ⟨t₁, rest₁, settles₁, obs₁⟩ := sim.read chunks₁ s t b rel waits
  obtain ⟨t₂, rest₂, settles₂, obs₂⟩ := sim.read chunks₂ s t b rel waits
  rw [same] at settles₁
  obtain ⟨outs, ends⟩ := settles₁.unique settles₂
  obtain ⟨items, error⟩ := outputs_inj outs
  refine ⟨items, error, ?_⟩
  rw [obs₁, obs₂]
  cases ends
  rfl

end Simulates

end Lib.Incremental
