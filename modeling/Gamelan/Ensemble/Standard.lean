import Gamelan.Ensemble.Registry

namespace Gamelan

/-!
# The standard ensemble

The instruments that scores are written for.
-/

/-! ### Alphabets and sample files that instruments share -/

/-- The vowels of both octaves. -/
def metallophoneAlphabet : List Char :=
  ['O', 'E', 'U', 'A', 'I', 'o', 'e', 'u', 'a', 'i']

def drumAlphabet : List Char :=
  ['o', 'e', 'n', 'u', 'D', 'T', 'k', 'p', 'ḱ', 'ṕ']

def drumSamples : List String :=
  ["kkr_o.wav", "kkr_e.wav", "kkr_n.wav", "kkr_u.wav", "kkr_d.wav", "kkr_t.wav", "kkr_k.wav",
   "kkr_p.wav", "kkr_k-h.wav", "kkr_pak.wav"]

/-- The samples of the smaller metallophones. -/
def kantilSamples : List String :=
  ["gk_o.wav", "gk_e.wav", "gk_u.wav", "gk_a.wav", "gk_i.wav", "gk_o-h.wav", "gk_e-h.wav",
   "gk_u-h.wav", "gk_a-h.wav", "gk_i-h.wav"]

/-- The samples of the larger metallophones. -/
def pemadeSamples : List String :=
  ["gp_o.wav", "gp_e.wav", "gp_u.wav", "gp_a.wav", "gp_i.wav", "gp_o-h.wav", "gp_e-h.wav",
   "gp_u-h.wav", "gp_a-h.wav", "gp_i-h.wav"]

/-! ### The instruments -/

namespace Registry

/-- The atomic instruments. -/
def standardAtomics : List Atomic :=
  [⟨"r1", ['E', 'U', 'A', 'I', 'O', 'e'],
      ["r_e.wav", "r_u.wav", "r_a.wav", "r_i.wav", "r_o.wav", "r_e-h.wav"], -24.0⟩,
   ⟨"r2", ['A', 'I', 'O', 'e', 'u', 'a'],
      ["r_a.wav", "r_i.wav", "r_o.wav", "r_e-h.wav", "r_u-h.wav", "r_a-h.wav"], -24.0⟩,
   ⟨"r3", ['e', 'u', 'a', 'i', 'o'],
      ["r_e-h.wav", "r_u-h.wav", "r_a-h.wav", "r_i-h.wav", "r_o-h.wav"], -24.0⟩,
   ⟨"r4", ['U', 'a', 'i', 'o', 'e', 'u'],
      ["r_u-h.wav", "r_a-h.wav", "r_i-h.wav", "r_o-h.wav", "r_e-hh.wav", "r_u-hh.wav"], -24.0⟩,
   ⟨"rs2", ['a', 'i', 'o', 'e', 'u'],
      ["r_a.wav", "r_i.wav", "r_o.wav", "r_e-h.wav", "r_u-h.wav"], -24.0⟩,
   ⟨"rs4", ['a', 'i', 'o', 'e', 'u'],
      ["r_a-h.wav", "r_i-h.wav", "r_o-h.wav", "r_e-hh.wav", "r_u-hh.wav"], -24.0⟩,
   ⟨"rp1", ['e', 'u', 'a', 'i', 'o'],
      ["r_e.wav", "r_u.wav", "r_a.wav", "r_i.wav", "r_o.wav"], -24.0⟩,
   ⟨"rp3", ['e', 'u', 'a', 'i', 'o'],
      ["r_e-h.wav", "r_u-h.wav", "r_a-h.wav", "r_i-h.wav", "r_o-h.wav"], -24.0⟩,
   ⟨"ks", metallophoneAlphabet, kantilSamples, -28.0⟩,
   ⟨"kp", metallophoneAlphabet, kantilSamples, -28.0⟩,
   ⟨"ps", metallophoneAlphabet, pemadeSamples, -28.0⟩,
   ⟨"pp", metallophoneAlphabet, pemadeSamples, -28.0⟩,
   ⟨"gr1", ['E', 'U', 'A', 'I', 'o', 'e', 'u', 'a', 'i'],
      ["gr_e.wav", "gr_u.wav", "gr_a.wav", "gr_i.wav", "gr_o.wav", "gr_e-h.wav", "gr_u-h.wav",
       "gr_a-h.wav", "gr_i-h.wav"], -26.0⟩,
   ⟨"gr2", ['E', 'U', 'A', 'I', 'o', 'e', 'u', 'a', 'i'],
      ["gr_e-h.wav", "gr_u-h.wav", "gr_a-h.wav", "gr_i-h.wav", "gr_o-h.wav", "gr_e-hh.wav",
       "gr_u-hh.wav", "gr_a-hh.wav", "gr_i-hh.wav"], -26.0⟩,
   ⟨"u", [], [], -24.0⟩,
   ⟨"t", [], [], -24.0⟩,
   ⟨"p", ['U', 'A', 'i', 'o', 'e', 'u', 'a'],
      ["pp_u.wav", "pp_a.wav", "pp_i.wav", "pp_o.wav", "pp_e.wav", "pp_u-h.wav", "pp_a-h.wav"], -22.0⟩,
   ⟨"c", ['I', 'O', 'E', 'U', 'A'],
      ["pc_i.wav", "pc_o.wav", "pc_e.wav", "pc_u.wav", "pc_a.wav"], -22.0⟩,
   ⟨"j", ['I', 'O', 'E', 'U', 'A'],
      ["pj_i.wav", "pj_o.wav", "pj_e.wav", "pj_u.wav", "pj_a.wav"], -22.0⟩,
   ⟨"g", ['G', 'L', 'P', 't'], ["g_g.wav", "g_l.wav", "g_p.wav", "g_t.wav"], -20.0⟩,
   ⟨"km", ['x'], ["km.wav"], -20.0⟩,
   ⟨"kn", ['n'], ["kn.wav"], -24.0⟩,
   ⟨"cc", ['x', 'c', 'C'], ["c_x-l.wav", "c_c.wav", "c_c-o.wav"], -28.0⟩,
   ⟨"kkr", drumAlphabet, drumSamples, -17.0⟩,
   ⟨"krw", drumAlphabet, drumSamples, -17.0⟩,
   ⟨"krl", drumAlphabet, drumSamples, -17.0⟩,
   ⟨"tr", ['o', 'p', 'x'], ["tr_o.wav", "tr_p.wav", "tr_x.wav"], -18.0⟩]

/-- The composite instruments. -/
def standardComposites : List Composite :=
  [⟨"rs", ["rs2", "rs4"]⟩,
   ⟨"rp", ["rp1", "rp3"]⟩,
   ⟨"kt", ["ks", "kp"]⟩,
   ⟨"pd", ["ps", "pp"]⟩,
   ⟨"gs", ["ks", "ps"]⟩,
   ⟨"gp", ["kp", "pp"]⟩,
   ⟨"gr", ["gr1", "gr2"]⟩,
   ⟨"ggs", ["ks", "kp", "ps", "pp"]⟩]

/-- The tables keep the rules of a registry. -/
theorem standard_wellFormed : WellFormed standardAtomics standardComposites where
  ids_nodup := by decide +kernel
  alphabet_le := by decide +kernel
  samples_eq := by decide +kernel
  members_atomic := by decide +kernel

/-- The registry of the standard ensemble. -/
def standard : Registry where
  atomics := standardAtomics
  composites := standardComposites
  wellFormed := standard_wellFormed

end Registry

end Gamelan
