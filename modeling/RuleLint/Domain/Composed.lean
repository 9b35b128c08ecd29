import RuleLint.Domain.Mark

/-!
# Composed labels

The same text can be written in several ways: marks on different sides of a letter come in any
order, and a letter with a mark is often a character of its own. In a composed text the marks are
in the order of their classes, and whatever can be one character is. The classes and the pairs are
those of Unicode 17, for the characters that labels hold.
-/

namespace RuleLint.Domain

/-- The classes of marks, with their code points. Marks of one class keep their order. -/
def markClasses : List (Nat × CodePoints) :=
  [(1, [(820, 824), (7380, 7380), (7394, 7400), (8402, 8403), (8408, 8410), (8421, 8422),
     (8426, 8427), (68153, 68153), (92912, 92916), (113822, 113822), (119143, 119145)]),
   (6, [(94192, 94193)]),
   (7, [(2364, 2364), (2492, 2492), (2620, 2620), (2748, 2748), (2876, 2876), (3132, 3132),
     (3260, 3260), (4151, 4151), (6964, 6964), (7142, 7142), (7223, 7223), (43443, 43443),
     (69818, 69818), (70003, 70003), (70090, 70090), (70198, 70198), (70377, 70377),
     (70459, 70460), (70726, 70726), (70851, 70851), (71104, 71104), (71351, 71351),
     (71738, 71738), (72003, 72003), (73026, 73026), (125258, 125258)]),
   (8, [(12441, 12442)]),
   (9, [(2381, 2381), (2509, 2509), (2637, 2637), (2765, 2765), (2893, 2893), (3021, 3021),
     (3149, 3149), (3277, 3277), (3387, 3388), (3405, 3405), (3530, 3530), (3642, 3642),
     (3770, 3770), (3972, 3972), (4153, 4154), (5908, 5909), (5940, 5940), (6098, 6098),
     (6752, 6752), (6980, 6980), (7082, 7083), (7154, 7155), (11647, 11647), (43014, 43014),
     (43052, 43052), (43204, 43204), (43347, 43347), (43456, 43456), (43766, 43766),
     (44013, 44013), (68159, 68159), (69702, 69702), (69744, 69744), (69759, 69759),
     (69817, 69817), (69939, 69940), (70080, 70080), (70197, 70197), (70378, 70378),
     (70477, 70477), (70606, 70608), (70722, 70722), (70850, 70850), (71103, 71103),
     (71231, 71231), (71350, 71350), (71467, 71467), (71737, 71737), (71997, 71998),
     (72160, 72160), (72244, 72244), (72263, 72263), (72345, 72345), (72767, 72767),
     (73028, 73029), (73111, 73111), (73537, 73538), (90415, 90415)]),
   (10, [(1456, 1456)]),
   (11, [(1457, 1457)]),
   (12, [(1458, 1458)]),
   (13, [(1459, 1459)]),
   (14, [(1460, 1460)]),
   (15, [(1461, 1461)]),
   (16, [(1462, 1462)]),
   (17, [(1463, 1463)]),
   (18, [(1464, 1464), (1479, 1479)]),
   (19, [(1465, 1466)]),
   (20, [(1467, 1467)]),
   (21, [(1468, 1468)]),
   (22, [(1469, 1469)]),
   (23, [(1471, 1471)]),
   (24, [(1473, 1473)]),
   (25, [(1474, 1474)]),
   (26, [(64286, 64286)]),
   (27, [(1611, 1611), (2288, 2288)]),
   (28, [(1612, 1612), (2289, 2289)]),
   (29, [(1613, 1613), (2290, 2290)]),
   (30, [(1560, 1560), (1614, 1614)]),
   (31, [(1561, 1561), (1615, 1615)]),
   (32, [(1562, 1562), (1616, 1616)]),
   (33, [(1617, 1617)]),
   (34, [(1618, 1618)]),
   (35, [(1648, 1648)]),
   (36, [(1809, 1809)]),
   (84, [(3157, 3157)]),
   (91, [(3158, 3158)]),
   (103, [(3640, 3641)]),
   (107, [(3656, 3659)]),
   (118, [(3768, 3769)]),
   (122, [(3784, 3787)]),
   (129, [(3953, 3953)]),
   (130, [(3954, 3954), (3962, 3965), (3968, 3968)]),
   (132, [(3956, 3956)]),
   (202, [(801, 802), (807, 808), (7632, 7632)]),
   (214, [(7630, 7630)]),
   (216, [(795, 795), (3897, 3897), (119141, 119142), (119150, 119154)]),
   (218, [(7674, 7674), (12330, 12330)]),
   (220, [(790, 793), (796, 800), (803, 806), (809, 819), (825, 828), (839, 841), (845, 846),
     (851, 854), (857, 858), (1425, 1425), (1430, 1430), (1435, 1435), (1442, 1447), (1450, 1450),
     (1477, 1477), (1621, 1622), (1628, 1628), (1631, 1631), (1763, 1763), (1770, 1770),
     (1773, 1773), (1841, 1841), (1844, 1844), (1847, 1849), (1851, 1852), (1854, 1854),
     (1858, 1858), (1860, 1860), (1862, 1862), (1864, 1864), (2034, 2034), (2045, 2045),
     (2137, 2139), (2201, 2203), (2255, 2259), (2275, 2275), (2278, 2278), (2281, 2281),
     (2285, 2287), (2294, 2294), (2297, 2298), (2386, 2386), (3864, 3865), (3893, 3893),
     (3895, 3895), (4038, 4038), (4237, 4237), (6459, 6459), (6680, 6680), (6783, 6783),
     (6837, 6842), (6845, 6845), (6847, 6848), (6851, 6852), (6858, 6858), (6877, 6877),
     (6886, 6886), (7020, 7020), (7381, 7385), (7388, 7391), (7405, 7405), (7618, 7618),
     (7626, 7626), (7631, 7631), (7673, 7673), (7677, 7677), (7679, 7679), (8424, 8424),
     (8428, 8431), (43307, 43309), (43700, 43700), (65063, 65069), (66045, 66045), (66272, 66272),
     (68109, 68109), (68154, 68154), (68326, 68326), (69370, 69371), (69373, 69375),
     (69446, 69447), (69451, 69451), (69453, 69456), (69507, 69507), (69509, 69509),
     (119163, 119170), (119178, 119179), (124142, 124142), (124399, 124399), (125136, 125142)]),
   (222, [(1434, 1434), (1453, 1453), (6457, 6457), (12333, 12333)]),
   (224, [(12334, 12335)]),
   (226, [(119149, 119149)]),
   (228, [(1454, 1454), (6313, 6313), (7671, 7672), (12331, 12331)]),
   (230, [(768, 788), (829, 838), (842, 844), (848, 850), (855, 855), (859, 859), (867, 879),
     (1155, 1159), (1426, 1429), (1431, 1433), (1436, 1441), (1448, 1449), (1451, 1452),
     (1455, 1455), (1476, 1476), (1552, 1559), (1619, 1620), (1623, 1627), (1629, 1630),
     (1750, 1756), (1759, 1762), (1764, 1764), (1767, 1768), (1771, 1772), (1840, 1840),
     (1842, 1843), (1845, 1846), (1850, 1850), (1853, 1853), (1855, 1857), (1859, 1859),
     (1861, 1861), (1863, 1863), (1865, 1866), (2027, 2033), (2035, 2035), (2070, 2073),
     (2075, 2083), (2085, 2087), (2089, 2093), (2199, 2200), (2204, 2207), (2250, 2254),
     (2260, 2273), (2276, 2277), (2279, 2280), (2282, 2284), (2291, 2293), (2295, 2296),
     (2299, 2303), (2385, 2385), (2387, 2388), (2558, 2558), (3970, 3971), (3974, 3975),
     (4957, 4959), (6109, 6109), (6458, 6458), (6679, 6679), (6773, 6780), (6832, 6836),
     (6843, 6844), (6849, 6850), (6853, 6857), (6859, 6876), (6880, 6885), (6887, 6890),
     (7019, 7019), (7021, 7027), (7376, 7378), (7386, 7387), (7392, 7392), (7412, 7412),
     (7416, 7417), (7616, 7617), (7619, 7625), (7627, 7628), (7633, 7669), (7675, 7675),
     (7678, 7678), (8400, 8401), (8404, 8407), (8411, 8412), (8417, 8417), (8423, 8423),
     (8425, 8425), (8432, 8432), (11503, 11505), (11744, 11775), (42607, 42607), (42612, 42621),
     (42654, 42655), (42736, 42737), (43232, 43249), (43696, 43696), (43698, 43699),
     (43703, 43704), (43710, 43711), (43713, 43713), (65056, 65062), (65070, 65071),
     (66422, 66426), (68111, 68111), (68152, 68152), (68325, 68325), (68900, 68903),
     (68969, 68973), (69291, 69292), (69448, 69450), (69452, 69452), (69506, 69506),
     (69508, 69508), (69888, 69890), (70502, 70516), (70750, 70750), (92976, 92982),
     (119173, 119177), (119210, 119213), (119362, 119364), (122880, 123023), (123184, 123190),
     (123566, 123566), (123628, 123631), (124143, 124143), (124398, 124398), (124643, 124643),
     (124646, 124646), (124654, 124655), (124661, 124661), (125252, 125257)]),
   (232, [(789, 789), (794, 794), (856, 856), (7670, 7670), (12332, 12332), (124140, 124141)]),
   (233, [(860, 860), (863, 863), (866, 866), (7676, 7676)]),
   (234, [(861, 862), (864, 865), (6891, 6891), (7629, 7629)])]

/-- The code points of what can be one character with the one before it, each with the code points
of those. -/
def compositions : List (Nat × List Nat) :=
  [(768, [97, 101, 105, 110, 111, 117, 119, 121, 226, 234, 244, 252, 259, 275, 333, 417, 432, 945,
     949, 951, 953, 959, 965, 969, 970, 971, 1077, 1080, 7936, 7937, 7952, 7953, 7968, 7969, 7984,
     7985, 8000, 8001, 8016, 8017, 8032, 8033]),
   (769, [97, 99, 101, 103, 105, 107, 108, 109, 110, 111, 112, 114, 115, 117, 119, 121, 122, 226,
     229, 230, 231, 234, 239, 244, 245, 248, 252, 259, 275, 333, 361, 417, 432, 945, 949, 951,
     953, 959, 965, 969, 970, 971, 1075, 1082, 7936, 7937, 7952, 7953, 7968, 7969, 7984, 7985,
     8000, 8001, 8016, 8017, 8032, 8033]),
   (770, [97, 99, 101, 103, 104, 105, 106, 111, 115, 117, 119, 121, 122, 7841, 7865, 7885]),
   (771, [97, 101, 105, 110, 111, 117, 118, 121, 226, 234, 244, 259, 417, 432]),
   (772, [97, 101, 103, 105, 111, 117, 121, 228, 230, 245, 246, 252, 491, 551, 559, 945, 953, 965,
     1080, 1091, 7735, 7771]),
   (774, [97, 101, 103, 105, 111, 117, 553, 945, 953, 965, 1072, 1077, 1078, 1080, 1091, 7841]),
   (775, [97, 98, 99, 100, 101, 102, 103, 104, 109, 110, 111, 112, 114, 115, 116, 119, 120, 121,
     122, 347, 353, 7779, 67026, 67034]),
   (776, [97, 101, 104, 105, 111, 116, 117, 119, 120, 121, 245, 363, 953, 965, 1072, 1077, 1078,
     1079, 1080, 1086, 1091, 1095, 1099, 1101, 1110, 1241, 1257]),
   (777, [97, 101, 105, 111, 117, 121, 226, 234, 244, 259, 417, 432]),
   (778, [97, 117, 119, 121]),
   (779, [111, 117, 1091]),
   (780, [97, 99, 100, 101, 103, 104, 105, 106, 107, 108, 110, 111, 114, 115, 116, 117, 122, 252,
     658]),
   (783, [97, 101, 105, 111, 114, 117, 1141]),
   (785, [97, 101, 105, 111, 114, 117]),
   (787, [945, 949, 951, 953, 959, 961, 965, 969]),
   (788, [945, 949, 951, 953, 959, 961, 965, 969]),
   (795, [111, 117]),
   (803, [97, 98, 100, 101, 104, 105, 107, 108, 109, 110, 111, 114, 115, 116, 117, 118, 119, 121,
     122, 417, 432]),
   (804, [117]),
   (805, [97]),
   (806, [115, 116]),
   (807, [99, 100, 101, 103, 104, 107, 108, 110, 114, 115, 116]),
   (808, [97, 101, 105, 111, 117]),
   (813, [100, 101, 108, 110, 116, 117]),
   (814, [104]),
   (816, [101, 105, 117]),
   (817, [98, 100, 104, 107, 108, 110, 114, 116, 122]),
   (824, [61, 8592, 8594, 8596, 8656, 8658, 8660, 8707, 8712, 8715, 8739, 8741, 8764, 8771, 8773,
     8776, 8781, 8801, 8804, 8805, 8818, 8819, 8822, 8823, 8826, 8827, 8828, 8829, 8834, 8835,
     8838, 8839, 8849, 8850, 8866, 8872, 8873, 8875, 8882, 8883, 8884, 8885]),
   (834, [945, 951, 953, 965, 969, 970, 971, 7936, 7937, 7968, 7969, 7984, 7985, 8016, 8017, 8032,
     8033]),
   (1619, [1575]),
   (1620, [1575, 1608, 1610, 1729, 1746, 1749]),
   (1621, [1575]),
   (2364, [2344, 2352, 2355]),
   (2494, [2503]),
   (2519, [2503]),
   (2878, [2887]),
   (2902, [2887]),
   (2903, [2887]),
   (3006, [3014, 3015]),
   (3031, [2962, 3014]),
   (3158, [3142]),
   (3266, [3270]),
   (3285, [3263, 3270, 3274]),
   (3286, [3270]),
   (3390, [3398, 3399]),
   (3415, [3398]),
   (3530, [3545, 3548]),
   (3535, [3545]),
   (3551, [3545]),
   (4142, [4133]),
   (6965, [6917, 6919, 6921, 6923, 6925, 6929, 6970, 6972, 6974, 6975, 6978]),
   (12441, [12358, 12363, 12365, 12367, 12369, 12371, 12373, 12375, 12377, 12379, 12381, 12383,
     12385, 12388, 12390, 12392, 12399, 12402, 12405, 12408, 12411, 12445, 12454, 12459, 12461,
     12463, 12465, 12467, 12469, 12471, 12473, 12475, 12477, 12479, 12481, 12484, 12486, 12488,
     12495, 12498, 12501, 12504, 12507, 12527, 12528, 12529, 12530, 12541]),
   (12442, [12399, 12402, 12405, 12408, 12411, 12495, 12498, 12501, 12504, 12507]),
   (69818, [69785, 69787, 69797]),
   (69927, [69937, 69938]),
   (70462, [70471]),
   (70487, [70471]),
   (70584, [70594]),
   (70587, [70532]),
   (70594, [70539, 70594]),
   (70601, [70530, 70544, 70594]),
   (70832, [70841]),
   (70842, [70841]),
   (70845, [70841]),
   (71087, [71096, 71097]),
   (71984, [71989]),
   (90398, [90398]),
   (90399, [90398, 90401, 90402, 90409]),
   (90400, [90398, 90401]),
   (90409, [90398]),
   (93543, [93539, 93543, 93545])]

/-- The class of a character: 0 for all but marks. -/
def markClass (c : Char) : Nat :=
  ((markClasses.find? fun entry ↦ entry.2.has c).map Prod.fst).getD 0

/-- Whether a mark silences the vowel of the letter before it. -/
def silencesVowel (c : Char) : Bool :=
  markClass c == 9

/-- Whether the code point of a character lies between two others, which are included. -/
def isWithin (low high : Nat) (c : Char) : Bool :=
  low ≤ c.toNat && c.toNat ≤ high

/-- Whether two parts of a Korean syllable can be one character: a consonant with a vowel, or a
syllable that ends in a vowel with a consonant. -/
def composesHangul (first second : Char) : Bool :=
  (isWithin 0x1100 0x1112 first && isWithin 0x1161 0x1175 second)
    || (isWithin 0xac00 0xd7a3 first && (first.toNat - 0xac00) % 28 == 0
      && isWithin 0x11a8 0x11c2 second)

/-- Whether two characters in a row can be one. -/
def composes (first second : Char) : Bool :=
  composesHangul first second
    || ((compositions.lookup second.toNat).getD []).contains first.toNat

/-- Whether the rest of a text is composed, after a character of some class and after the last one
before it that is of class 0, if there is one. A mark is together with that one unless a mark of the
same class stands between them. -/
def isComposedAfter (base? : Option Char) (previous : Nat) : List Char → Bool
  | [] => true
  | c :: rest =>
    let current := markClass c
    let isOrdered := current == 0 || previous ≤ current
    let isTogether := previous == 0 || previous < current
    isOrdered && !(isTogether && base?.any fun base ↦ composes base c)
      && isComposedAfter (if current == 0 then some c else base?) current rest

/-- Whether a text is composed. -/
def isComposed (text : List Char) : Bool :=
  isComposedAfter none 0 text

end RuleLint.Domain
