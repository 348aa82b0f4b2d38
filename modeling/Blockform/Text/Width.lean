-- SUMMARY: How many columns of the screen a line of text takes (`lineWidth`).
import Blockform.Text.Unseen

/-!
# Width

A character takes one column, two if it is wide, and none if it stands on its
neighbour. What follows a character may change this: a selector asks for its
picture or for its text form, pictures that are joined share one place, and in
some scripts letters melt into one sign. A line is therefore measured from its
end to its start, with a note of what follows (`Behind`).

The tables are properties of the Unicode standard, in the state of its
version 17.
-/

namespace Blockform

namespace Charset

/-! ## Tables -/

/-- Characters that take no column of their own, the extenders apart: the property
    `Default_Ignorable_Code_Point`, signs that stand below a number, and the parts
    of a Korean syllable behind its first. -/
def weightless : Charset :=
  [(0xad, 0xad), (0x605, 0x605), (0x61c, 0x61c), (0x70f, 0x70f), (0x890, 0x891), (0x8e2, 0x8e2),
   (0x1160, 0x11ff), (0x180e, 0x180e), (0x200b, 0x200b), (0x200d, 0x200f), (0x202a, 0x202e),
   (0x2060, 0x206f), (0x3164, 0x3164), (0xa8fa, 0xa8fa), (0xd7b0, 0xd7c6), (0xd7cb, 0xd7fb),
   (0xfeff, 0xfeff), (0xffa0, 0xffa0), (0xfff0, 0xfff8), (0x1bca0, 0x1bca3), (0x1d173, 0x1d17a),
   (0xe0000, 0xe001f), (0xe0080, 0xe00ff), (0xe01f0, 0xe0fff)]

/-- Characters that take two columns in a fixed-width line. -/
def wide : Charset :=
  [(0x1100, 0x115f), (0x231a, 0x231b), (0x2329, 0x232a), (0x23e9, 0x23ec), (0x23f0, 0x23f0),
   (0x23f3, 0x23f3), (0x25fd, 0x25fe), (0x2614, 0x2615), (0x2630, 0x2637), (0x2648, 0x2653),
   (0x267f, 0x267f), (0x268a, 0x268f), (0x2693, 0x2693), (0x26a1, 0x26a1), (0x26aa, 0x26ab),
   (0x26bd, 0x26be), (0x26c4, 0x26c5), (0x26ce, 0x26ce), (0x26d4, 0x26d4), (0x26ea, 0x26ea),
   (0x26f2, 0x26f3), (0x26f5, 0x26f5), (0x26fa, 0x26fa), (0x26fd, 0x26fd), (0x2705, 0x2705),
   (0x270a, 0x270b), (0x2728, 0x2728), (0x274c, 0x274c), (0x274e, 0x274e), (0x2753, 0x2755),
   (0x2757, 0x2757), (0x2795, 0x2797), (0x27b0, 0x27b0), (0x27bf, 0x27bf), (0x2b1b, 0x2b1c),
   (0x2b50, 0x2b50), (0x2b55, 0x2b55), (0x2e80, 0x2e99), (0x2e9b, 0x2ef3), (0x2f00, 0x2fd5),
   (0x2ff0, 0x303e), (0x3041, 0x3096), (0x3099, 0x30ff), (0x3105, 0x312f), (0x3131, 0x318e),
   (0x3190, 0x31e5), (0x31ef, 0x321e), (0x3220, 0x3247), (0x3250, 0xa48c), (0xa490, 0xa4c6),
   (0xa960, 0xa97c), (0xac00, 0xd7a3), (0xf900, 0xfaff), (0xfe10, 0xfe19), (0xfe30, 0xfe52),
   (0xfe54, 0xfe66), (0xfe68, 0xfe6b), (0xff01, 0xff60), (0xffe0, 0xffe6), (0x16fe0, 0x16fe4),
   (0x16ff0, 0x16ff6), (0x17000, 0x18cd5), (0x18cff, 0x18d1e), (0x18d80, 0x18df2),
   (0x1aff0, 0x1aff3), (0x1aff5, 0x1affb), (0x1affd, 0x1affe), (0x1b000, 0x1b122),
   (0x1b132, 0x1b132), (0x1b150, 0x1b152), (0x1b155, 0x1b155), (0x1b164, 0x1b167),
   (0x1b170, 0x1b2fb), (0x1d300, 0x1d356), (0x1d360, 0x1d376), (0x1f004, 0x1f004),
   (0x1f0cf, 0x1f0cf), (0x1f18e, 0x1f18e), (0x1f191, 0x1f19a), (0x1f200, 0x1f202),
   (0x1f210, 0x1f23b), (0x1f240, 0x1f248), (0x1f250, 0x1f251), (0x1f260, 0x1f265),
   (0x1f300, 0x1f320), (0x1f32d, 0x1f335), (0x1f337, 0x1f37c), (0x1f37e, 0x1f393),
   (0x1f3a0, 0x1f3ca), (0x1f3cf, 0x1f3d3), (0x1f3e0, 0x1f3f0), (0x1f3f4, 0x1f3f4),
   (0x1f3f8, 0x1f43e), (0x1f440, 0x1f440), (0x1f442, 0x1f4fc), (0x1f4ff, 0x1f53d),
   (0x1f54b, 0x1f54e), (0x1f550, 0x1f567), (0x1f57a, 0x1f57a), (0x1f595, 0x1f596),
   (0x1f5a4, 0x1f5a4), (0x1f5fb, 0x1f64f), (0x1f680, 0x1f6c5), (0x1f6cc, 0x1f6cc),
   (0x1f6d0, 0x1f6d2), (0x1f6d5, 0x1f6d8), (0x1f6dc, 0x1f6df), (0x1f6eb, 0x1f6ec),
   (0x1f6f4, 0x1f6fc), (0x1f7e0, 0x1f7eb), (0x1f7f0, 0x1f7f0), (0x1f90c, 0x1f93a),
   (0x1f93c, 0x1f945), (0x1f947, 0x1f9ff), (0x1fa70, 0x1fa7c), (0x1fa80, 0x1fa8a),
   (0x1fa8e, 0x1fac6), (0x1fac8, 0x1fac8), (0x1facd, 0x1fadc), (0x1fadf, 0x1faea),
   (0x1faef, 0x1faf8), (0x20000, 0x2fffd), (0x30000, 0x3fffd)]

/-- Characters with a text form and a picture, between which a selector behind them
    chooses. -/
def twofold : Charset :=
  [(0x23, 0x23), (0x2a, 0x2a), (0x30, 0x39), (0xa9, 0xa9), (0xae, 0xae), (0x203c, 0x203c),
   (0x2049, 0x2049), (0x2122, 0x2122), (0x2139, 0x2139), (0x2194, 0x2199), (0x21a9, 0x21aa),
   (0x231a, 0x231b), (0x2328, 0x2328), (0x23cf, 0x23cf), (0x23e9, 0x23f3), (0x23f8, 0x23fa),
   (0x24c2, 0x24c2), (0x25aa, 0x25ab), (0x25b6, 0x25b6), (0x25c0, 0x25c0), (0x25fb, 0x25fe),
   (0x2600, 0x2604), (0x260e, 0x260e), (0x2611, 0x2611), (0x2614, 0x2615), (0x2618, 0x2618),
   (0x261d, 0x261d), (0x2620, 0x2620), (0x2622, 0x2623), (0x2626, 0x2626), (0x262a, 0x262a),
   (0x262e, 0x262f), (0x2638, 0x263a), (0x2640, 0x2640), (0x2642, 0x2642), (0x2648, 0x2653),
   (0x265f, 0x2660), (0x2663, 0x2663), (0x2665, 0x2666), (0x2668, 0x2668), (0x267b, 0x267b),
   (0x267e, 0x267f), (0x2692, 0x2697), (0x2699, 0x2699), (0x269b, 0x269c), (0x26a0, 0x26a1),
   (0x26a7, 0x26a7), (0x26aa, 0x26ab), (0x26b0, 0x26b1), (0x26bd, 0x26be), (0x26c4, 0x26c5),
   (0x26c8, 0x26c8), (0x26ce, 0x26cf), (0x26d1, 0x26d1), (0x26d3, 0x26d4), (0x26e9, 0x26ea),
   (0x26f0, 0x26f5), (0x26f7, 0x26fa), (0x26fd, 0x26fd), (0x2702, 0x2702), (0x2705, 0x2705),
   (0x2708, 0x270d), (0x270f, 0x270f), (0x2712, 0x2712), (0x2714, 0x2714), (0x2716, 0x2716),
   (0x271d, 0x271d), (0x2721, 0x2721), (0x2728, 0x2728), (0x2733, 0x2734), (0x2744, 0x2744),
   (0x2747, 0x2747), (0x274c, 0x274c), (0x274e, 0x274e), (0x2753, 0x2755), (0x2757, 0x2757),
   (0x2763, 0x2764), (0x2795, 0x2797), (0x27a1, 0x27a1), (0x27b0, 0x27b0), (0x27bf, 0x27bf),
   (0x2934, 0x2935), (0x2b05, 0x2b07), (0x2b1b, 0x2b1c), (0x2b50, 0x2b50), (0x2b55, 0x2b55),
   (0x3030, 0x3030), (0x303d, 0x303d), (0x3297, 0x3297), (0x3299, 0x3299), (0x1f004, 0x1f004),
   (0x1f170, 0x1f171), (0x1f17e, 0x1f17f), (0x1f202, 0x1f202), (0x1f21a, 0x1f21a),
   (0x1f22f, 0x1f22f), (0x1f237, 0x1f237), (0x1f30d, 0x1f30f), (0x1f315, 0x1f315),
   (0x1f31c, 0x1f31c), (0x1f321, 0x1f321), (0x1f324, 0x1f32c), (0x1f336, 0x1f336),
   (0x1f378, 0x1f378), (0x1f37d, 0x1f37d), (0x1f393, 0x1f393), (0x1f396, 0x1f397),
   (0x1f399, 0x1f39b), (0x1f39e, 0x1f39f), (0x1f3a7, 0x1f3a7), (0x1f3ac, 0x1f3ae),
   (0x1f3c2, 0x1f3c2), (0x1f3c4, 0x1f3c4), (0x1f3c6, 0x1f3c6), (0x1f3ca, 0x1f3ce),
   (0x1f3d4, 0x1f3e0), (0x1f3ed, 0x1f3ed), (0x1f3f3, 0x1f3f3), (0x1f3f5, 0x1f3f5),
   (0x1f3f7, 0x1f3f7), (0x1f408, 0x1f408), (0x1f415, 0x1f415), (0x1f41f, 0x1f41f),
   (0x1f426, 0x1f426), (0x1f43f, 0x1f43f), (0x1f441, 0x1f442), (0x1f446, 0x1f449),
   (0x1f44d, 0x1f44e), (0x1f453, 0x1f453), (0x1f46a, 0x1f46a), (0x1f47d, 0x1f47d),
   (0x1f4a3, 0x1f4a3), (0x1f4b0, 0x1f4b0), (0x1f4b3, 0x1f4b3), (0x1f4bb, 0x1f4bb),
   (0x1f4bf, 0x1f4bf), (0x1f4cb, 0x1f4cb), (0x1f4da, 0x1f4da), (0x1f4df, 0x1f4df),
   (0x1f4e4, 0x1f4e6), (0x1f4ea, 0x1f4ed), (0x1f4f7, 0x1f4f7), (0x1f4f9, 0x1f4fb),
   (0x1f4fd, 0x1f4fd), (0x1f508, 0x1f508), (0x1f50d, 0x1f50d), (0x1f512, 0x1f513),
   (0x1f549, 0x1f54a), (0x1f550, 0x1f567), (0x1f56f, 0x1f570), (0x1f573, 0x1f579),
   (0x1f587, 0x1f587), (0x1f58a, 0x1f58d), (0x1f590, 0x1f590), (0x1f5a5, 0x1f5a5),
   (0x1f5a8, 0x1f5a8), (0x1f5b1, 0x1f5b2), (0x1f5bc, 0x1f5bc), (0x1f5c2, 0x1f5c4),
   (0x1f5d1, 0x1f5d3), (0x1f5dc, 0x1f5de), (0x1f5e1, 0x1f5e1), (0x1f5e3, 0x1f5e3),
   (0x1f5e8, 0x1f5e8), (0x1f5ef, 0x1f5ef), (0x1f5f3, 0x1f5f3), (0x1f5fa, 0x1f5fa),
   (0x1f610, 0x1f610), (0x1f687, 0x1f687), (0x1f68d, 0x1f68d), (0x1f691, 0x1f691),
   (0x1f694, 0x1f694), (0x1f698, 0x1f698), (0x1f6ad, 0x1f6ad), (0x1f6b2, 0x1f6b2),
   (0x1f6b9, 0x1f6ba), (0x1f6bc, 0x1f6bc), (0x1f6cb, 0x1f6cb), (0x1f6cd, 0x1f6cf),
   (0x1f6e0, 0x1f6e5), (0x1f6e9, 0x1f6e9), (0x1f6f0, 0x1f6f0), (0x1f6f3, 0x1f6f3)]

/-- Characters that show as a picture unless a selector says otherwise. -/
def pictorial : Charset :=
  [(0x231a, 0x231b), (0x23e9, 0x23ec), (0x23f0, 0x23f0), (0x23f3, 0x23f3), (0x25fd, 0x25fe),
   (0x2614, 0x2615), (0x2648, 0x2653), (0x267f, 0x267f), (0x2693, 0x2693), (0x26a1, 0x26a1),
   (0x26aa, 0x26ab), (0x26bd, 0x26be), (0x26c4, 0x26c5), (0x26ce, 0x26ce), (0x26d4, 0x26d4),
   (0x26ea, 0x26ea), (0x26f2, 0x26f3), (0x26f5, 0x26f5), (0x26fa, 0x26fa), (0x26fd, 0x26fd),
   (0x2705, 0x2705), (0x270a, 0x270b), (0x2728, 0x2728), (0x274c, 0x274c), (0x274e, 0x274e),
   (0x2753, 0x2755), (0x2757, 0x2757), (0x2795, 0x2797), (0x27b0, 0x27b0), (0x27bf, 0x27bf),
   (0x2b1b, 0x2b1c), (0x2b50, 0x2b50), (0x2b55, 0x2b55), (0x1f004, 0x1f004), (0x1f0cf, 0x1f0cf),
   (0x1f18e, 0x1f18e), (0x1f191, 0x1f19a), (0x1f201, 0x1f201), (0x1f21a, 0x1f21a),
   (0x1f22f, 0x1f22f), (0x1f232, 0x1f236), (0x1f238, 0x1f23a), (0x1f250, 0x1f251),
   (0x1f300, 0x1f320), (0x1f32d, 0x1f335), (0x1f337, 0x1f37c), (0x1f37e, 0x1f393),
   (0x1f3a0, 0x1f3ca), (0x1f3cf, 0x1f3d3), (0x1f3e0, 0x1f3f0), (0x1f3f4, 0x1f3f4),
   (0x1f3f8, 0x1f43e), (0x1f440, 0x1f440), (0x1f442, 0x1f4fc), (0x1f4ff, 0x1f53d),
   (0x1f54b, 0x1f54e), (0x1f550, 0x1f567), (0x1f57a, 0x1f57a), (0x1f595, 0x1f596),
   (0x1f5a4, 0x1f5a4), (0x1f5fb, 0x1f64f), (0x1f680, 0x1f6c5), (0x1f6cc, 0x1f6cc),
   (0x1f6d0, 0x1f6d2), (0x1f6d5, 0x1f6d8), (0x1f6dc, 0x1f6df), (0x1f6eb, 0x1f6ec),
   (0x1f6f4, 0x1f6fc), (0x1f7e0, 0x1f7eb), (0x1f7f0, 0x1f7f0), (0x1f90c, 0x1f93a),
   (0x1f93c, 0x1f945), (0x1f947, 0x1f9ff), (0x1fa70, 0x1fa7c), (0x1fa80, 0x1fa8a),
   (0x1fa8e, 0x1fac6), (0x1fac8, 0x1fac8), (0x1facd, 0x1fadc), (0x1fadf, 0x1faea),
   (0x1faef, 0x1faf8)]

/-- Pictures that a tone of skin changes. -/
def person : Charset :=
  [(0x261d, 0x261d), (0x26f9, 0x26f9), (0x270a, 0x270d), (0x1f385, 0x1f385), (0x1f3c2, 0x1f3c4),
   (0x1f3c7, 0x1f3c7), (0x1f3ca, 0x1f3cc), (0x1f442, 0x1f443), (0x1f446, 0x1f450),
   (0x1f466, 0x1f478), (0x1f47c, 0x1f47c), (0x1f481, 0x1f483), (0x1f485, 0x1f487),
   (0x1f48f, 0x1f48f), (0x1f491, 0x1f491), (0x1f4aa, 0x1f4aa), (0x1f574, 0x1f575),
   (0x1f57a, 0x1f57a), (0x1f590, 0x1f590), (0x1f595, 0x1f596), (0x1f645, 0x1f647),
   (0x1f64b, 0x1f64f), (0x1f6a3, 0x1f6a3), (0x1f6b4, 0x1f6b6), (0x1f6c0, 0x1f6c0),
   (0x1f6cc, 0x1f6cc), (0x1f90c, 0x1f90c), (0x1f90f, 0x1f90f), (0x1f918, 0x1f91f),
   (0x1f926, 0x1f926), (0x1f930, 0x1f939), (0x1f93c, 0x1f93e), (0x1f977, 0x1f977),
   (0x1f9b5, 0x1f9b6), (0x1f9b8, 0x1f9b9), (0x1f9bb, 0x1f9bb), (0x1f9cd, 0x1f9cf),
   (0x1f9d1, 0x1f9dd), (0x1fac3, 0x1fac5), (0x1faf0, 0x1faf8)]

/-- Tones of skin. -/
def skinTone : Charset :=
  [(0x1f3fb, 0x1f3ff)]

/-- Letters that make a flag in pairs. -/
def flagLetter : Charset :=
  [(0x1f1e6, 0x1f1ff)]

/-- Letters in the tag behind a black flag. -/
def tagLetter : Charset :=
  [(0xe0061, 0xe007a)]

/-- Digits in the tag behind a black flag. -/
def tagDigit : Charset :=
  [(0xe0030, 0xe0039)]

/-- Quotes that a selector makes two columns wide. -/
def quoteMark : Charset :=
  [(0x2018, 0x2019), (0x201c, 0x201d)]

/-- Marks that do not part the letters on either side: selectors, and signs that are
    ignored where they have no meaning. -/
def passing : Charset :=
  [(0x34f, 0x34f), (0x17b4, 0x17b5), (0x180b, 0x180d), (0x180f, 0x180f), (0xfe00, 0xfe0f),
   (0xe0100, 0xe01ef)]

/-- Characters without a column that part the Arabic letters on either side. -/
def parting : Charset :=
  [(0x605, 0x605), (0x890, 0x891), (0x8e2, 0x8e2), (0x9be, 0x9be), (0x9d7, 0x9d7), (0xb3e, 0xb3e),
   (0xb57, 0xb57), (0xbbe, 0xbbe), (0xbd7, 0xbd7), (0xcc0, 0xcc0), (0xcc2, 0xcc2), (0xcc7, 0xcc8),
   (0xcca, 0xccb), (0xcd5, 0xcd6), (0xd3e, 0xd3e), (0xd57, 0xd57), (0xdcf, 0xdcf), (0xddf, 0xddf),
   (0x1160, 0x11ff), (0x1715, 0x1715), (0x1734, 0x1734), (0x180e, 0x180e), (0x1b35, 0x1b35),
   (0x1b3b, 0x1b3b), (0x1b3d, 0x1b3d), (0x1b43, 0x1b44), (0x1baa, 0x1baa), (0x1bf2, 0x1bf3),
   (0x200c, 0x200d), (0x2065, 0x2069), (0x302e, 0x302f), (0x3164, 0x3164), (0xa8fa, 0xa8fa),
   (0xa953, 0xa953), (0xa9c0, 0xa9c0), (0xd7b0, 0xd7c6), (0xd7cb, 0xd7fb), (0xffa0, 0xffa0),
   (0xfff0, 0xfff8), (0x111c0, 0x111c0), (0x11235, 0x11235), (0x1133e, 0x1133e), (0x1134d, 0x1134d),
   (0x11357, 0x11357), (0x113b8, 0x113b8), (0x113c2, 0x113c2), (0x113c5, 0x113c5),
   (0x113c7, 0x113c9), (0x113cf, 0x113cf), (0x114b0, 0x114b0), (0x114bd, 0x114bd),
   (0x115af, 0x115af), (0x116b6, 0x116b6), (0x11930, 0x11930), (0x1193d, 0x1193d),
   (0x11f41, 0x11f41), (0x16ff0, 0x16ff1), (0x1d165, 0x1d166), (0x1d16d, 0x1d172),
   (0xe0000, 0xe0000), (0xe0002, 0xe001f), (0xe0080, 0xe00ff), (0xe01f0, 0xe0fff)]

/-- The Arabic letter alef, which melts into a lam in front of it. -/
def alef : Charset :=
  [(0x622, 0x623), (0x625, 0x625), (0x627, 0x627), (0x671, 0x673), (0x675, 0x675), (0x773, 0x774),
   (0x870, 0x882)]

/-- The Arabic letter lam. -/
def lam : Charset :=
  [(0x644, 0x644), (0x6b5, 0x6b8), (0x76a, 0x76a), (0x8a6, 0x8a6), (0x8c7, 0x8c7)]

/-- Khmer letters that can be written below another. -/
def khmerLetter : Charset :=
  [(0x1780, 0x1782), (0x1784, 0x1787), (0x1789, 0x178c), (0x178e, 0x1793), (0x1795, 0x1798),
   (0x179b, 0x179d), (0x17a0, 0x17a0), (0x17a2, 0x17a2), (0x17a7, 0x17a7), (0x17ab, 0x17ac),
   (0x17af, 0x17af)]

/-- Consonants of Tifinagh. -/
def tifinaghLetter : Charset :=
  [(0x2d31, 0x2d65), (0x2d6f, 0x2d6f)]

end Charset

/-! ## What follows -/

/-- What follows a place in a line, as far as it bears on the width in front. -/
inductive Follower where
  /-- Nothing that matters. -/
  | plain
  | lineFeed
  /-- A picture, and one that is joined to what stands in front. -/
  | picture
  | joinedPicture
  | joinedKeycap
  | skinTone
  /-- One letter of a flag, or more than one. -/
  | flagLetter
  | flagLetters
  /-- Letters of flags in front of a joined picture: one, an even or an odd number. -/
  | joinedFlagLetter
  | joinedFlags
  | joinedFlagsAndLetter
  /-- The end of a tag in front of a joined picture, with some of its letters, or
      with some of its digits. -/
  | tagLetters (count : Nat)
  | tagDigits (count : Nat)
  | alef
  | lamed
  | bugineseYa
  | bugineseVowel
  | tifinagh
  | tifinaghJoiner
  | lisuTone
  | orkhonVowel
  | khmerLetter
  | kiratRaiE
  | kiratRaiAi
deriving DecidableEq

/-- Is this the start of a sign that several letters may make? -/
def Follower.isLetter : Follower → Bool
  | .alef | .lamed | .bugineseYa | .bugineseVowel | .tifinagh | .tifinaghJoiner | .lisuTone
  | .orkhonVowel | .khmerLetter | .kiratRaiE | .kiratRaiAi => true
  | _ => false

/-- What follows a place, with the selectors in front of it. `joined` says that
    letters are asked to join. -/
structure Behind where
  follower : Follower := .plain
  asPicture : Bool := false
  asText : Bool := false
  asWide : Bool := false
  joined : Bool := false
deriving DecidableEq

namespace Behind

/-- Put a selector for the picture in front. -/
def withPicture (b : Behind) : Behind :=
  if b.follower.isLetter || b.follower = .joinedPicture || b.follower = .joinedKeycap then
    { b with asPicture := true }
  else { asPicture := true }

/-- Put a selector for the text form in front. -/
def withText (b : Behind) : Behind :=
  if b.follower.isLetter then { b with asText := true } else { asText := true }

/-- Put a selector for the wide form in front. -/
def withWide (b : Behind) : Behind :=
  if b.follower.isLetter then { b with asWide := true } else { asWide := true }

/-- Drop a selector for the picture that finds no character to act on. Letters
    behind it may still join. -/
def dropPicture (b : Behind) : Behind :=
  if !b.asPicture then b
  else if b.follower.isLetter then { b with asPicture := false }
  else {}

/-- Drop a selector for another form that finds no character to act on. -/
def dropForm (b : Behind) : Behind :=
  if !b.asText && !b.asWide then b
  else if !b.follower.isLetter then {}
  else if b.asText then { b with asText := false }
  else { b with asWide := false }

end Behind

/-! ## Characters -/

/-- Does the character stand on its neighbour? The joiner of Tifinagh is an
    extender that can be seen. -/
def isWeightless (c : Char) : Bool :=
  (Charset.weightless.contains c || Charset.extender.contains c) && c.toNat ≠ 0x2d7f

/-- The columns of a character by itself, and what it is to the characters in
    front of it. -/
def aloneWidth (c : Char) : Int × Follower :=
  if isWeightless c then (0, .plain)
  else if Charset.skinTone.contains c then (2, .skinTone)
  else if Charset.pictorial.contains c then (2, .picture)
  else if Charset.wide.contains c then (2, .plain)
  else if Charset.flagLetter.contains c then (1, .flagLetter)
  else if Charset.alef.contains c then (1, .alef)
  else if Charset.khmerLetter.contains c then (1, .khmerLetter)
  else if Charset.tifinaghLetter.contains c then (1, .tifinagh)
  else match c.toNat with
    | 0x5dc => (1, .lamed)
    | 0x17a4 => (2, .plain)
    | 0x17d8 => (3, .plain)
    | 0x1a10 => (1, .bugineseYa)
    | 0xa4fc | 0xa4fd => (1, .lisuTone)
    | 0x10c03 => (1, .orkhonVowel)
    | 0x16d67 => (1, .kiratRaiE)
    | 0x16d68 => (1, .kiratRaiAi)
    | _ => (1, .plain)

/-- The columns that a character adds where it makes one sign with what follows,
    and what the sign is to the characters in front. A sign may take fewer columns
    than its parts were counted for. -/
def Follower.merge (f : Follower) (joined : Bool) (c : Char) : Option (Int × Follower) :=
  let isJoiner := c.toNat = 0x200d
  match f with
  | .alef =>
    if Charset.lam.contains c then some (0, .plain)
    else if isWeightless c && !Charset.parting.contains c then some (0, .alef)
    else none
  | .lamed => if joined && c.toNat = 0x5d0 then some (0, .plain) else none
  | .khmerLetter => if c.toNat = 0x17d2 then some (-1, .plain) else none
  | .bugineseYa => if joined && c.toNat = 0x1a17 then some (0, .bugineseVowel) else none
  | .bugineseVowel => if c.toNat = 0x1a15 then some (0, .plain) else none
  | .tifinagh =>
    if c.toNat = 0x2d7f then some (1, .tifinaghJoiner)
    else if joined && Charset.tifinaghLetter.contains c then some (0, .plain)
    else none
  | .tifinaghJoiner => if Charset.tifinaghLetter.contains c then some (-1, .plain) else none
  | .lisuTone => if 0xa4f8 ≤ c.toNat && c.toNat ≤ 0xa4fb then some (0, .plain) else none
  | .orkhonVowel => if joined && c.toNat = 0x10c32 then some (0, .plain) else none
  | .kiratRaiE =>
    match c.toNat with
    | 0x16d63 | 0x16d69 => some (0, .plain)
    | 0x16d67 => some (0, .kiratRaiAi)
    | 0x16d68 => some (1, .kiratRaiE)
    | _ => none
  | .kiratRaiAi => if c.toNat = 0x16d63 then some (0, .plain) else none
  | .picture => if isJoiner then some (0, .joinedPicture) else none
  | .skinTone =>
    if Charset.person.contains c then some (0, .picture)
    else if isJoiner then some (0, .joinedPicture)
    else none
  | .flagLetter => if Charset.flagLetter.contains c then some (1, .flagLetters) else none
  | .flagLetters =>
    if Charset.flagLetter.contains c then some (1, .flagLetters)
    else if isJoiner then some (0, .joinedPicture)
    else none
  | .joinedPicture =>
    if c.toNat = 0x20e3 then some (0, .joinedKeycap)
    else if c.toNat = 0xe007f then some (0, .tagLetters 0)
    else if Charset.flagLetter.contains c then some (1, .joinedFlagLetter)
    else if Charset.skinTone.contains c then some (0, .skinTone)
    else if Charset.pictorial.contains c then some (0, .picture)
    else none
  | .joinedFlagLetter => if Charset.flagLetter.contains c then some (-1, .joinedFlags) else none
  | .joinedFlags =>
    if Charset.flagLetter.contains c then some (3, .joinedFlagsAndLetter)
    else if isJoiner then some (0, .joinedPicture)
    else none
  | .joinedFlagsAndLetter =>
    if Charset.flagLetter.contains c then some (-1, .joinedFlags)
    else if isJoiner then some (0, .joinedPicture)
    else none
  | .tagLetters n =>
    if Charset.tagLetter.contains c && n < 6 then some (0, .tagLetters (n + 1))
    else if Charset.tagDigit.contains c && n ≤ 4 then some (0, .tagDigits 1)
    else if c.toNat = 0x1f3f4 && 3 ≤ n then some (0, .picture)
    else none
  | .tagDigits n =>
    if Charset.tagDigit.contains c && n < 3 then some (0, .tagDigits (n + 1))
    else if c.toNat = 0x1f3f4 && n = 3 then some (0, .picture)
    else none
  | .plain | .lineFeed | .joinedKeycap => none

/-! ## Lines -/

/-- The columns that a character adds to the line behind it, and what follows the
    places in front of it. -/
def widthBefore (c : Char) (b : Behind) : Int × Behind :=
  if b.asPicture && Charset.twofold.contains c then
    (if b.follower = .joinedPicture || b.follower = .joinedKeycap then 0 else 2,
      { follower := .picture })
  else
    let b := b.dropPicture
    if c = '\n' then (1, { follower := .lineFeed })
    else if c = '\r' && b.follower = .lineFeed then (0, {})
    else if c.toNat ≤ 0xa0 then (1, {})
    else if c.toNat = 0xfe0f then (0, b.withPicture)
    else if c.toNat = 0xfe0e then (0, b.withText)
    else if c.toNat = 0xfe01 then (0, b.withWide)
    else if b.asText && Charset.twofold.contains c && Charset.pictorial.contains c &&
        !Charset.inRange c.toNat (0x1f200, 0x1f2ff) then (1, {})
    else if !b.asText && b.asWide && Charset.quoteMark.contains c then (2, {})
    else
      let b := b.dropForm
      let passes := b.follower.isLetter && b.follower ≠ .alef
      if passes && c.toNat = 0x200d then (0, { b with joined := true })
      else if passes && Charset.passing.contains c then (0, b)
      else
        let merged := if b.asWide then none else b.follower.merge b.joined c
        let (width, follower) := merged.getD (aloneWidth c)
        (width, { follower })

/-- How many columns of the screen a line takes. -/
def lineWidth (line : String) : Nat :=
  let (width, _) := line.toList.foldr
    (fun c (width, b) => let (more, b) := widthBefore c b; (width + more, b)) ((0 : Int), {})
  width.toNat

end Blockform
