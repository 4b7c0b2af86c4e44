import FeatureFlow.Text.Assigned
import FeatureFlow.Text.Mark

/-!
# Characters that are seen

A character is not seen on its own when it is a control or format character, a
blank other than the space, a mark that extends the character before it, a
filler, a private one or one that Unicode does not assign.
-/

namespace FeatureFlow.Text

/-- Unseen characters that are assigned and no nonspacing marks. -/
def hidden : CodePoints := .ofText
  "0-1F 7F-A0 AD 600-605 61C 6DD 70F 890-891 8E2 9BE 9D7 B3E B57 BBE BD7 CC0 CC2 CC7-CC8 CCA-CCB
    CD5-CD6 D3E D57 DCF DDF 115F-1160 1680 1715 1734 180E 1B35 1B3B 1B3D 1B43-1B44 1BAA 1BF2-1BF3
    2000-200F 2028-202F 205F-2064 2066-206F 3000 302E-302F 3164 A953 A9C0 E000-F8FF FEFF FFA0
    FFF9-FFFB 110BD 110CD 111C0 11235 1133E 1134D 11357 113B8 113C2 113C5 113C7-113C9 113CF 114B0
    114BD 115AF 116B6 11930 1193D 11F41 13430-1343F 16FF0-16FF1 1BCA0-1BCA3 1D165-1D166
    1D16D-1D17A E0001 E0020-E007F F0000-FFFFD 100000-10FFFD"

def isVisible (c : Char) : Bool :=
  isAssigned c && !isNonspacingMark c && !hidden.contains c

end FeatureFlow.Text
