import Gltf.Options
import Gltf.Proofs.Table
import Mathlib

/-!
Options over a history of calls. What is in effect can be told from the calls alone: a handler or a
state is live if some call has put it there and none since has replaced or removed it, and of the
live ones for the kinds of an object the most special counts. A refused call leaves no trace.
-/

namespace Gltf.Options

/-- What a caller may ask of options. States are given by name. -/
inductive Call where
  | setState (name state : String) (parent : Option String)
  | clearState (name : String) (parent : Option String)
  | register (parent : String) (candidate : Candidate) (name : Option String)
  | unregister (parent name : String)

def call (o : Options) : Call → Except OptionProblem Options
  | .setState name state parent => o.setStateNamed name state parent
  | .clearState name parent => .ok (o.clearState name parent)
  | .register parent candidate name => o.register parent candidate name
  | .unregister parent name => .ok (o.unregister parent name)

/-- The options after a call, which are the old ones if it is refused. -/
def after (o : Options) (c : Call) : Options :=
  match o.call c with
  | .ok o' => o'
  | .error _ => o

/-- The options after a history of calls. -/
def run (calls : List Call) : Options := calls.foldl after {}

/-! ### What calls say -/

namespace Call

/-- The handler that a call puts under a kind and the name of an extension. -/
inductive PutsHandler (kind : String) : String → Call → Handler → Prop
  | named {name : String} (h : Handler) (nonempty : name ≠ "") :
      PutsHandler kind name (.register kind (.handler h) (some name)) h
  | declared {t : ObjectType} {given : Option String} (unnamed : given = none ∨ given = some "")
      (nonempty : t.extensionName ≠ "") :
      PutsHandler kind t.extensionName (.register kind (.handler (.record t)) given) (.record t)

def DropsHandler (kind name : String) (c : Call) : Prop := c = .unregister kind name

/-- The state that a call puts under a kind, or under none for all kinds, and a name. -/
def PutsState (parent : Option String) (name : String) (c : Call) (s : ExtensionState) : Prop :=
  c = .setState name s.name parent

def DropsState (parent : Option String) (name : String) (c : Call) : Prop :=
  c = .clearState name parent

/-- The calls that are refused, whatever came before them. -/
inductive Refused : Call → Prop
  | otherType (parent type : String) (name : Option String) :
      Refused (.register parent (.otherType type) name)
  | value (parent text : String) (name : Option String) :
      Refused (.register parent (.value text) name)
  | unnamedRecord {t : ObjectType} {name : Option String} (parent : String)
      (unnamed : name = none ∨ name = some "") (undeclared : t.extensionName = "") :
      Refused (.register parent (.handler (.record t)) name)
  | unnamedFunction {function : String} {read : List (String × Json) → Except String Reported}
      {name : Option String} (parent : String) (unnamed : name = none ∨ name = some "") :
      Refused (.register parent (.handler (.function function read)) name)
  | unknownState {state : String} (name : String) (parent : Option String)
      (unknown : ∀ s : ExtensionState, s.name ≠ state) : Refused (.setState name state parent)

end Call

section
variable {α : Type} (puts : Call → α → Prop) (drops : Call → Prop)

/-- A call that leaves alone what is there: it puts nothing in its place and does not drop it. -/
def Quiet (c : Call) : Prop := ¬drops c ∧ ∀ a, ¬puts c a

/-- What there is to begin with and has not been touched, or was put last and not dropped since. -/
inductive Live (start : α → Prop) (calls : List Call) (a : α) : Prop
  | start (h : start a) (quiet : ∀ c ∈ calls, Quiet puts drops c) : Live start calls a
  | put {before after : List Call} {c : Call} (split : calls = before ++ c :: after)
      (h : puts c a) (quiet : ∀ c' ∈ after, Quiet puts drops c') : Live start calls a

end

/-- The handler that a history leaves for the extensions of a name on a kind. -/
def LiveHandler (calls : List Call) (name kind : String) (h : Handler) : Prop :=
  Live (Call.PutsHandler kind name) (Call.DropsHandler kind name)
    (fun h => ((kind, name), h) ∈ Registry.default) calls h

/-- The state that a history leaves for the extensions of a name, on a kind or on all. -/
def LiveState (calls : List Call) (name : String) (parent : Option String) (s : ExtensionState) :
    Prop :=
  Live (Call.PutsState parent name) (Call.DropsState parent name) (fun _ => False) calls s

/-- What is live for the first of some kinds for which anything is. -/
def First {α : Type} (live : String → α → Prop) (chain : List String) (a : α) : Prop :=
  ∃ before kind after, chain = before ++ kind :: after ∧ live kind a ∧
    ∀ k ∈ before, ∀ b, ¬live k b

/-- The state in effect for an extension of an object of the given kinds. -/
inductive Resolves (calls : List Call) (chain : List String) (name : String) :
    ExtensionState → Prop
  | ofKind {s : ExtensionState} (h : First (fun kind => LiveState calls name (some kind)) chain s) :
      Resolves calls chain name s
  | ofAll {s : ExtensionState}
      (unscoped : ∀ kind ∈ chain, ∀ s', ¬LiveState calls name (some kind) s')
      (h : LiveState calls name none s) : Resolves calls chain name s
  | typed {h : Handler} (unscoped : ∀ kind ∈ chain, ∀ s', ¬LiveState calls name (some kind) s')
      (unset : ∀ s', ¬LiveState calls name none s')
      (handled : First (LiveHandler calls name) chain h) : Resolves calls chain name .typed
  | captured (unscoped : ∀ kind ∈ chain, ∀ s', ¬LiveState calls name (some kind) s')
      (unset : ∀ s', ¬LiveState calls name none s')
      (unhandled : ∀ kind ∈ chain, ∀ h, ¬LiveHandler calls name kind h) :
      Resolves calls chain name .genericCapture

/-! ### Histories -/

section
variable {α : Type} {puts : Call → α → Prop} {drops : Call → Prop} {start : α → Prop} {a : α}

theorem live_nil_iff : Live puts drops start [] a ↔ start a := by
  constructor
  · intro h
    cases h with
    | start h => exact h
    | put split => simp at split
  · exact fun h => .start h (by simp)

/-- One more call puts something, or leaves what is live. -/
theorem live_concat_iff {calls : List Call} {c : Call} :
    Live puts drops start (calls ++ [c]) a ↔
      puts c a ∨ Live puts drops start calls a ∧ Quiet puts drops c := by
  constructor
  · intro h
    cases h with
    | start h quiet =>
        exact .inr ⟨.start h fun c' hc' => quiet c' (List.mem_append_left _ hc'),
          quiet c (List.mem_append_right _ (List.mem_singleton_self c))⟩
    | @put before after c' split h quiet =>
        rcases List.eq_nil_or_concat after with rfl | ⟨after, last, rfl⟩
        · obtain ⟨-, heq⟩ := List.append_inj' split rfl
          cases heq
          exact .inl h
        · have hsplit : calls ++ [c] = before ++ c' :: after ++ [last] := by
            simpa [List.concat_eq_append] using split
          obtain ⟨hcalls, hlast⟩ := List.append_inj' hsplit rfl
          cases hlast
          refine .inr ⟨.put hcalls h fun d hd => quiet d ?_, quiet c ?_⟩
          · simp [hd]
          · simp
  · rintro (h | ⟨h, hquiet⟩)
    · exact .put rfl h (by simp)
    · have hlast (after : List Call) (quiet : ∀ c' ∈ after, Quiet puts drops c') :
          ∀ c' ∈ after ++ [c], Quiet puts drops c' := by
        intro c' hc'
        rcases List.mem_append.1 hc' with hc' | hc'
        · exact quiet c' hc'
        · rwa [List.mem_singleton.1 hc']
      cases h with
      | start h quiet => exact .start h (hlast _ quiet)
      | @put before after c' split h quiet =>
          have hsplit : calls ++ [c] = before ++ c' :: (after ++ [c]) := by simp [split]
          exact .put hsplit h (hlast _ quiet)

/-- A function of the history that starts and steps as what is live is what is live. -/
theorem live_iff {f : List Call → Option α} (hstart : ∀ a, f [] = some a ↔ start a)
    (hstep : ∀ calls c a, f (calls ++ [c]) = some a ↔
      puts c a ∨ f calls = some a ∧ Quiet puts drops c) (calls : List Call) :
    ∀ a, f calls = some a ↔ Live puts drops start calls a := by
  induction calls using List.reverseRecOn with
  | nil => exact fun a => (hstart a).trans live_nil_iff.symm
  | append_singleton calls c ih =>
      intro a
      rw [hstep, ih, live_concat_iff]

end

theorem findSome?_eq_some_iff_first {α : Type} {live : String → α → Prop} {f : String → Option α}
    (h : ∀ kind a, f kind = some a ↔ live kind a) (chain : List String) (a : α) :
    chain.findSome? f = some a ↔ First live chain a := by
  simp only [List.findSome?_eq_some_iff, First, Option.eq_none_iff_forall_ne_some, ne_eq, h]

theorem findSome?_eq_none_iff_live {α : Type} {live : String → α → Prop} {f : String → Option α}
    (h : ∀ kind a, f kind = some a ↔ live kind a) (chain : List String) :
    chain.findSome? f = none ↔ ∀ kind ∈ chain, ∀ a, ¬live kind a := by
  rw [List.findSome?_eq_none_iff]
  simp only [Option.eq_none_iff_forall_ne_some, ne_eq, h]

theorem run_concat (calls : List Call) (c : Call) : run (calls ++ [c]) = (run calls).after c := by
  rw [run, run, List.foldl_append]
  rfl

/-! ### Single calls -/

theorem ofName?_eq_some_iff {text : String} {s : ExtensionState} :
    ExtensionState.ofName? text = some s ↔ text = s.name := by
  constructor
  · intro h
    have hname := List.find?_some h
    exact (by simpa using hname : s.name = text).symm
  · rintro rfl
    cases s <;> decide

theorem ofName?_eq_none_iff {text : String} :
    ExtensionState.ofName? text = none ↔ ∀ s : ExtensionState, s.name ≠ text := by
  rw [Option.eq_none_iff_forall_ne_some]
  refine forall_congr' fun s => not_congr ?_
  rw [ofName?_eq_some_iff, eq_comm]

theorem nameFor_of_named {name : String} (h : Handler) (hname : name ≠ "") :
    Registry.nameFor h (some name) = name := by
  rw [Registry.nameFor]
  · rfl
  · intro t hempty
    exact absurd (Option.some.inj hempty) hname
  · rintro t ⟨⟩

theorem nameFor_record {t : ObjectType} {given : Option String}
    (hgiven : given = none ∨ given = some "") :
    Registry.nameFor (.record t) given = t.extensionName := by
  rcases hgiven with rfl | rfl <;> rfl

theorem nameFor_function {function : String}
    {read : List (String × Json) → Except String Reported} {given : Option String}
    (hgiven : given = none ∨ given = some "") :
    Registry.nameFor (.function function read) given = "" := by
  rcases hgiven with rfl | rfl <;> rfl

theorem unnamed_or_named (given : Option String) :
    (given = none ∨ given = some "") ∨ ∃ name, name ≠ "" ∧ given = some name := by
  cases given with
  | none => exact .inl (.inl rfl)
  | some name =>
      by_cases hname : name = ""
      · exact .inl (.inr (hname ▸ rfl))
      · exact .inr ⟨name, hname, rfl⟩

/-- What is under a key after a call that puts something there, drops it or is quiet about it. -/
theorem eq_some_iff_of_call {α : Type} {puts : Call → α → Prop} {drops : Call → Prop} {c : Call}
    {old new : Option α} (hputs : ∀ a, puts c a → new = some a) (hdrops : drops c → new = none)
    (hquiet : Quiet puts drops c → new = old) (a : α) :
    new = some a ↔ puts c a ∨ old = some a ∧ Quiet puts drops c := by
  constructor
  · intro hnew
    by_cases hput : ∃ b, puts c b
    · obtain ⟨b, hb⟩ := hput
      rw [hputs b hb] at hnew
      exact .inl (Option.some.inj hnew ▸ hb)
    · have hdrop : ¬drops c := by
        intro hdrop
        rw [hdrops hdrop] at hnew
        cases hnew
      have hq : Quiet puts drops c := ⟨hdrop, not_exists.1 hput⟩
      exact .inr ⟨hquiet hq ▸ hnew, hq⟩
  · rintro (hput | ⟨hold, hq⟩)
    · exact hputs a hput
    · rw [hquiet hq, hold]

section
variable {o : Options} {c : Call} {kind name : String}

theorem registry_after_register {parent : String} {h : Handler} {given : Option String} :
    (o.after (.register parent (.handler h) given)).registry =
      if Registry.nameFor h given = "" then o.registry
      else Table.put o.registry (parent, Registry.nameFor h given) h := by
  simp only [after, call, register, Registry.register, String.isEmpty_iff]
  split_ifs <;> rfl

theorem get?_registry_after (h : Handler) :
    Table.get? (o.after c).registry (kind, name) = some h ↔
      c.PutsHandler kind name h ∨ Table.get? o.registry (kind, name) = some h ∧
        Quiet (Call.PutsHandler kind name) (Call.DropsHandler kind name) c := by
  apply eq_some_iff_of_call
  case hputs =>
    intro h hputs
    cases hputs with
    | named h nonempty =>
        rw [registry_after_register, nameFor_of_named h nonempty, if_neg nonempty, Table.get?_put,
          if_pos rfl]
    | declared unnamed nonempty =>
        rw [registry_after_register, nameFor_record unnamed, if_neg nonempty, Table.get?_put,
          if_pos rfl]
  case hdrops =>
    rintro rfl
    exact (Table.get?_erase o.registry _ _).trans (if_pos rfl)
  case hquiet =>
    rintro ⟨hdrops, hputs⟩
    cases c with
    | setState n text parent =>
        simp only [after, call, setStateNamed]
        cases ExtensionState.ofName? text <;> rfl
    | clearState n parent => rfl
    | unregister parent n =>
        have hkey : (parent, n) ≠ (kind, name) := by
          rintro ⟨⟩
          exact hdrops rfl
        exact (Table.get?_erase o.registry _ _).trans (if_neg hkey)
    | register parent candidate given =>
        cases candidate with
        | otherType type => rfl
        | value text => rfl
        | handler h =>
            rw [registry_after_register]
            split_ifs with hempty
            · rfl
            · rw [Table.get?_put, if_neg]
              rintro ⟨⟩
              rcases unnamed_or_named given with hgiven | ⟨given, hgiven, rfl⟩
              · cases h with
                | record t =>
                    rw [nameFor_record hgiven] at hempty hputs
                    exact hputs _ (.declared hgiven hempty)
                | function function read => exact hempty (nameFor_function hgiven)
              · rw [nameFor_of_named h hgiven] at hputs
                exact hputs _ (.named h hgiven)

theorem state?_after {parent : Option String} (s : ExtensionState) :
    (o.after c).state? name parent = some s ↔
      c.PutsState parent name s ∨ o.state? name parent = some s ∧
        Quiet (Call.PutsState parent name) (Call.DropsState parent name) c := by
  apply eq_some_iff_of_call
  case hputs =>
    rintro s rfl
    have hname : ExtensionState.ofName? s.name = some s := ofName?_eq_some_iff.2 rfl
    simp only [after, call, setStateNamed, hname]
    exact (Table.get?_put o.states _ _ _).trans (if_pos rfl)
  case hdrops =>
    rintro rfl
    exact (Table.get?_erase o.states _ _).trans (if_pos rfl)
  case hquiet =>
    rintro ⟨hdrops, hputs⟩
    cases c with
    | setState n text parent' =>
        simp only [after, call, setStateNamed]
        cases hstate : ExtensionState.ofName? text with
        | none => rfl
        | some s =>
            obtain rfl := ofName?_eq_some_iff.1 hstate
            have hkey : (parent', n) ≠ (parent, name) := by
              rintro ⟨⟩
              exact hputs s rfl
            exact (Table.get?_put o.states _ _ _).trans (if_neg hkey)
    | clearState n parent' =>
        have hkey : (parent', n) ≠ (parent, name) := by
          rintro ⟨⟩
          exact hdrops rfl
        exact (Table.get?_erase o.states _ _).trans (if_neg hkey)
    | unregister parent' n => rfl
    | register parent' candidate given =>
        simp only [after, call, register]
        cases o.registry.register parent' candidate given <;> rfl

theorem register_eq_error_iff {parent : String} {h : Handler} {given : Option String} :
    (∃ problem, o.register parent (.handler h) given = .error problem) ↔
      Registry.nameFor h given = "" := by
  simp only [register, Registry.register, String.isEmpty_iff]
  split_ifs with hempty <;> simp [hempty]

theorem call_eq_error_iff : (∃ problem, o.call c = .error problem) ↔ c.Refused := by
  cases c with
  | setState n text parent =>
      simp only [call, setStateNamed]
      cases hstate : ExtensionState.ofName? text with
      | none => exact iff_of_true ⟨_, rfl⟩ (.unknownState n parent (ofName?_eq_none_iff.1 hstate))
      | some s =>
          refine iff_of_false (by simp) ?_
          rintro ⟨⟩
          rename_i unknown
          exact unknown s (ofName?_eq_some_iff.1 hstate).symm
  | clearState n parent => exact iff_of_false (by simp [call]) (by rintro ⟨⟩)
  | unregister parent n => exact iff_of_false (by simp [call]) (by rintro ⟨⟩)
  | register parent candidate given =>
      cases candidate with
      | otherType type => exact iff_of_true ⟨_, rfl⟩ (.otherType parent type given)
      | value text => exact iff_of_true ⟨_, rfl⟩ (.value parent text given)
      | handler h =>
          refine register_eq_error_iff.trans ⟨fun hempty => ?_, fun hrefused => ?_⟩
          · rcases unnamed_or_named given with hgiven | ⟨given, hgiven, rfl⟩
            · cases h with
              | record t =>
                  exact .unnamedRecord parent hgiven (nameFor_record hgiven ▸ hempty)
              | function function read => exact .unnamedFunction parent hgiven
            · exact absurd (nameFor_of_named h hgiven ▸ hempty) hgiven
          · cases hrefused with
            | unnamedRecord _ unnamed undeclared => rw [nameFor_record unnamed, undeclared]
            | unnamedFunction _ unnamed => exact nameFor_function unnamed

theorem after_of_refused (h : c.Refused) : o.after c = o := by
  obtain ⟨problem, hcall⟩ := call_eq_error_iff.2 h
  rw [after, hcall]

end

/-! ### Whole histories -/

theorem get?_registry_run_iff (calls : List Call) (name kind : String) (h : Handler) :
    Table.get? (run calls).registry (kind, name) = some h ↔ LiveHandler calls name kind h := by
  refine live_iff (f := fun calls => Table.get? (run calls).registry (kind, name)) ?_ ?_ calls h
  · intro h
    exact ⟨Table.mem_of_get?, Table.get?_of_mem (by decide)⟩
  · intro calls c h
    rw [run_concat]
    exact get?_registry_after h

theorem state?_run_iff (calls : List Call) (name : String) (parent : Option String)
    (s : ExtensionState) :
    (run calls).state? name parent = some s ↔ LiveState calls name parent s := by
  refine live_iff (f := fun calls => (run calls).state? name parent) ?_ ?_ calls s
  · intro s
    exact iff_of_false (by rintro ⟨⟩) id
  · intro calls c s
    rw [run_concat]
    exact state?_after s

theorem resolve_run_iff (calls : List Call) (chain : List String) (name : String)
    (s : ExtensionState) :
    (run calls).resolve chain name = s ↔ Resolves calls chain name s := by
  have hstate (kind : String) := state?_run_iff calls name (some kind)
  have hscoped := findSome?_eq_some_iff_first hstate chain
  have hunscoped := findSome?_eq_none_iff_live hstate chain
  have hglobal := state?_run_iff calls name none
  have hhandler := findSome?_eq_some_iff_first (get?_registry_run_iff calls name) chain
  have hunhandled := findSome?_eq_none_iff_live (get?_registry_run_iff calls name) chain
  have hunset : (run calls).state? name none = none ↔ ∀ s, ¬LiveState calls name none s := by
    simp only [Option.eq_none_iff_forall_ne_some, ne_eq, hglobal]
  rw [resolve, lookup, Registry.lookup]
  constructor
  · rintro rfl
    cases hfound : chain.findSome? fun kind => (run calls).state? name (some kind) with
    | some s => exact .ofKind ((hscoped s).1 hfound)
    | none =>
        cases hset : (run calls).state? name none with
        | some s => exact .ofAll (hunscoped.1 hfound) ((hglobal s).1 hset)
        | none =>
            cases hlookup : chain.findSome? fun kind =>
              Table.get? (run calls).registry (kind, name) with
            | some h =>
                exact .typed (hunscoped.1 hfound) (hunset.1 hset) ((hhandler h).1 hlookup)
            | none => exact .captured (hunscoped.1 hfound) (hunset.1 hset) (hunhandled.1 hlookup)
  · intro h
    cases h with
    | ofKind h => rw [(hscoped s).2 h]
    | ofAll unscoped h => rw [hunscoped.2 unscoped, (hglobal s).2 h]
    | @typed h unscoped unset handled =>
        rw [hunscoped.2 unscoped, hunset.2 unset, (hhandler h).2 handled]
        rfl
    | captured unscoped unset unhandled =>
        rw [hunscoped.2 unscoped, hunset.2 unset, hunhandled.2 unhandled]
        rfl

theorem run_of_refused {c : Call} (h : c.Refused) (before after : List Call) :
    run (before ++ c :: after) = run (before ++ after) := by
  simp only [run, List.foldl_append, List.foldl_cons, after_of_refused h]

/-- After any history of calls, the handler for an extension is the live one of the most special
kind that has one; the state in effect is the live one of the most special kind that has one, else
the live one for all kinds, else typed exactly if there is a handler. What is refused does not
depend on the history, and all is as if a refused call had not been made. -/
theorem run_in_effect (calls : List Call) (chain : List String) (name : String) :
    (∀ h, (run calls).lookup chain name = some h ↔ First (LiveHandler calls name) chain h) ∧
      ((run calls).lookup chain name = none ↔
        ∀ kind ∈ chain, ∀ h, ¬LiveHandler calls name kind h) ∧
      (∀ s, (run calls).resolve chain name = s ↔ Resolves calls chain name s) ∧
      ∀ before c after, ((∃ problem, (run before).call c = .error problem) ↔ c.Refused) ∧
        (c.Refused → run (before ++ c :: after) = run (before ++ after)) := by
  have hhandlers := get?_registry_run_iff calls name
  refine ⟨findSome?_eq_some_iff_first hhandlers chain, findSome?_eq_none_iff_live hhandlers chain,
    resolve_run_iff calls chain name, fun before c after => ⟨call_eq_error_iff, fun h => ?_⟩⟩
  exact run_of_refused h before after

/-- A handler for all kinds, a state set for one kind and cleared again, and a refused call. -/
theorem run_in_effect_cleared :
    let chain := ["MaterialNormalTextureInfo", "TextureInfo", "ExtensibleObject"]
    let before : List Call :=
      [.setState "KHR_texture_transform" "disabled" (some "TextureInfo"),
        .setState "KHR_texture_transform" "typed" none,
        .register "ExtensibleObject" (.handler (.record Schema.textureBasisu)) (some "VENDOR_tag")]
    let refused : Call := .setState "KHR_texture_transform" "off" none
    let after : List Call :=
      [.clearState "KHR_texture_transform" (some "TextureInfo"),
        .unregister "TextureInfo" "KHR_texture_transform"]
    let calls := before ++ refused :: after
    First (LiveHandler calls "VENDOR_tag") chain (.record Schema.textureBasisu) ∧
      (∀ kind ∈ chain, ∀ h, ¬LiveHandler calls "KHR_texture_transform" kind h) ∧
      Resolves calls chain "KHR_texture_transform" .typed ∧ refused.Refused ∧
      run calls = run (before ++ after) := by
  intro chain before refused after calls
  obtain ⟨htag, -, -, -⟩ := run_in_effect calls chain "VENDOR_tag"
  obtain ⟨-, hunhandled, hresolve, hrefused⟩ := run_in_effect calls chain "KHR_texture_transform"
  have hcall : refused.Refused := (hrefused before refused after).1.1 ⟨_, rfl⟩
  exact ⟨(htag _).1 rfl, hunhandled.1 rfl, (hresolve _).1 rfl, hcall,
    (hrefused before refused after).2 hcall⟩

end Gltf.Options
