import Swatchbook.Proofs.Resolution.Evaluation

/-! Values by recursion: a token has at most one, and only where no path of
dependencies returns. -/
namespace Swatchbook

variable {tokens : Dict Token}

theorem Means.unique {name text text' : String} (h : Means tokens name text)
    (h' : Means tokens name text') : text = text' := by
  induction h generalizing text' with
  | intro t valueOf ht _ hv ih =>
      obtain ⟨t', valueOf', ht', hd', hv'⟩ := h'
      rw [ht] at ht'
      cases ht'
      refine (hv.congr fun d hd => ?_).unique hv'
      have hdep := (dependsOn_iff ht).2 hd
      exact ih d hdep (hd' d hdep)

theorem Means.of_dependencies {name text : String} {t : Token} (valueOf : String → String)
    (ht : tokens.get? name = some t) (hd : ∀ d ∈ t.dependencies, Means tokens d (valueOf d))
    (hv : t.Equation valueOf text) : Means tokens name text :=
  .intro t valueOf ht (fun d hdep => hd d ((dependsOn_iff ht).1 hdep)) hv

theorem Means.mem_keys {name text : String} (h : Means tokens name text) :
    name ∈ tokens.keys := by
  obtain ⟨t, _, ht, _, _⟩ := h
  exact Dict.mem_keys_of_get? ht

theorem Means.of_dependsOn {a b text : String} (h : Means tokens a text)
    (hab : DependsOn tokens a b) : ∃ v, Means tokens b v := by
  obtain ⟨_, valueOf, _, hd, _⟩ := h
  exact ⟨valueOf b, hd b hab⟩

/-- A value rests on finitely many others. -/
theorem Means.acc {name text : String} (h : Means tokens name text) :
    Acc (fun b a => DependsOn tokens a b) name := by
  induction h with
  | intro _ _ _ _ _ ih => exact .intro _ fun d hd => ih d hd

theorem not_transGen_of_acc {α : Type} {r : α → α → Prop} {a : α}
    (h : Acc (fun b a => r a b) a) : ¬Relation.TransGen r a a := by
  intro hcycle
  have hswap : Relation.TransGen (fun b a => r a b) a a := Relation.transGen_swap.2 hcycle
  have hacc := h.transGen
  clear h hcycle
  induction hacc with
  | intro a _ ih => exact ih a hswap hswap

theorem Solves.get?_of_means {values : Dict String} (hs : Solves tokens values)
    {name text : String} (h : Means tokens name text) : values.get? name = some text := by
  induction h with
  | @intro name _ t valueOf ht _ hv ih =>
      obtain ⟨valueOf', text', hd', hvalue, hv'⟩ := hs.equation name t ht
      have hagree : ∀ d ∈ t.dependencies, valueOf d = valueOf' d := by
        intro d hd
        have hdep := (dependsOn_iff ht).2 hd
        have hvalues := ih d hdep
        rw [hd' d hdep] at hvalues
        exact (Option.some.inj hvalues).symm
      rw [hvalue, (hv.congr hagree).unique hv']

end Swatchbook
