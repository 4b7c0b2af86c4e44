import FeatureFlow.Text.CodePoints

/-!
# Composed text

A mark and the character before it are often one character as well. Composing a
text takes it apart, puts the marks of each character into their order and joins
what can be joined, so that equal texts become the same text. The tables are
those of Unicode 17, without characters that never stand in composed text.
-/

namespace FeatureFlow.Text

-- ---------------------------------------------------------------------------
-- Tables
-- ---------------------------------------------------------------------------

/-- The marks of each class. Marks of one class keep their order, others are
sorted by class. -/
def markClasses : List (Nat × CodePoints) := [
  (1, .ofText "334-338 1CD4 1CE2-1CE8 20D2-20D3 20D8-20DA 20E5-20E6 20EA-20EB 10A39 16AF0-16AF4
    1BC9E 1D167-1D169"),
  (6, .ofText "16FF0-16FF1"),
  (7, .ofText "93C 9BC A3C ABC B3C C3C CBC 1037 1B34 1BE6 1C37 A9B3 110BA 11173 111CA 11236 112E9
    1133B-1133C 11446 114C3 115C0 116B7 1183A 11943 11D42 1E94A"),
  (8, .ofText "3099-309A"),
  (9, .ofText "94D 9CD A4D ACD B4D BCD C4D CCD D3B-D3C D4D DCA E3A EBA F84 1039-103A 1714-1715 1734
    17D2 1A60 1B44 1BAA-1BAB 1BF2-1BF3 2D7F A806 A82C A8C4 A953 A9C0 AAF6 ABED 10A3F 11046 11070
    1107F 110B9 11133-11134 111C0 11235 112EA 1134D 113CE-113D0 11442 114C2 115BF 1163F 116B6
    1172B 11839 1193D-1193E 119E0 11A34 11A47 11A99 11C3F 11D44-11D45 11D97 11F41-11F42 1612F"),
  (10, .ofText "5B0"),
  (11, .ofText "5B1"),
  (12, .ofText "5B2"),
  (13, .ofText "5B3"),
  (14, .ofText "5B4"),
  (15, .ofText "5B5"),
  (16, .ofText "5B6"),
  (17, .ofText "5B7"),
  (18, .ofText "5B8 5C7"),
  (19, .ofText "5B9-5BA"),
  (20, .ofText "5BB"),
  (21, .ofText "5BC"),
  (22, .ofText "5BD"),
  (23, .ofText "5BF"),
  (24, .ofText "5C1"),
  (25, .ofText "5C2"),
  (26, .ofText "FB1E"),
  (27, .ofText "64B 8F0"),
  (28, .ofText "64C 8F1"),
  (29, .ofText "64D 8F2"),
  (30, .ofText "618 64E"),
  (31, .ofText "619 64F"),
  (32, .ofText "61A 650"),
  (33, .ofText "651"),
  (34, .ofText "652"),
  (35, .ofText "670"),
  (36, .ofText "711"),
  (84, .ofText "C55"),
  (91, .ofText "C56"),
  (103, .ofText "E38-E39"),
  (107, .ofText "E48-E4B"),
  (118, .ofText "EB8-EB9"),
  (122, .ofText "EC8-ECB"),
  (129, .ofText "F71"),
  (130, .ofText "F72 F7A-F7D F80"),
  (132, .ofText "F74"),
  (202, .ofText "321-322 327-328 1DD0"),
  (214, .ofText "1DCE"),
  (216, .ofText "31B F39 1D165-1D166 1D16E-1D172"),
  (218, .ofText "1DFA 302A"),
  (220, .ofText "316-319 31C-320 323-326 329-333 339-33C 347-349 34D-34E 353-356 359-35A 591 596 59B
    5A2-5A7 5AA 5C5 655-656 65C 65F 6E3 6EA 6ED 731 734 737-739 73B-73C 73E 742 744 746 748 7F2
    7FD 859-85B 899-89B 8CF-8D3 8E3 8E6 8E9 8ED-8EF 8F6 8F9-8FA 952 F18-F19 F35 F37 FC6 108D 193B
    1A18 1A7F 1AB5-1ABA 1ABD 1ABF-1AC0 1AC3-1AC4 1ACA 1ADD 1AE6 1B6C 1CD5-1CD9 1CDC-1CDF 1CED 1DC2
    1DCA 1DCF 1DF9 1DFD 1DFF 20E8 20EC-20EF A92B-A92D AAB4 FE27-FE2D 101FD 102E0 10A0D 10A3A 10AE6
    10EFA-10EFB 10EFD-10EFF 10F46-10F47 10F4B 10F4D-10F50 10F83 10F85 1D17B-1D182 1D18A-1D18B
    1E4EE 1E5EF 1E8D0-1E8D6"),
  (222, .ofText "59A 5AD 1939 302D"),
  (224, .ofText "302E-302F"),
  (226, .ofText "1D16D"),
  (228, .ofText "5AE 18A9 1DF7-1DF8 302B"),
  (230, .ofText "300-314 33D-33F 342 346 34A-34C 350-352 357 35B 363-36F 483-487 592-595 597-599
    59C-5A1 5A8-5A9 5AB-5AC 5AF 5C4 610-617 653-654 657-65B 65D-65E 6D6-6DC 6DF-6E2 6E4 6E7-6E8
    6EB-6EC 730 732-733 735-736 73A 73D 73F-741 743 745 747 749-74A 7EB-7F1 7F3 816-819 81B-823
    825-827 829-82D 897-898 89C-89F 8CA-8CE 8D4-8E1 8E4-8E5 8E7-8E8 8EA-8EC 8F3-8F5 8F7-8F8
    8FB-8FF 951 953-954 9FE F82-F83 F86-F87 135D-135F 17DD 193A 1A17 1A75-1A7C 1AB0-1AB4 1ABB-1ABC
    1AC1-1AC2 1AC5-1AC9 1ACB-1ADC 1AE0-1AE5 1AE7-1AEA 1B6B 1B6D-1B73 1CD0-1CD2 1CDA-1CDB 1CE0 1CF4
    1CF8-1CF9 1DC0-1DC1 1DC3-1DC9 1DCB-1DCC 1DD1-1DF5 1DFB 1DFE 20D0-20D1 20D4-20D7 20DB-20DC 20E1
    20E7 20E9 20F0 2CEF-2CF1 2DE0-2DFF A66F A674-A67D A69E-A69F A6F0-A6F1 A8E0-A8F1 AAB0 AAB2-AAB3
    AAB7-AAB8 AABE-AABF AAC1 FE20-FE26 FE2E-FE2F 10376-1037A 10A0F 10A38 10AE5 10D24-10D27
    10D69-10D6D 10EAB-10EAC 10F48-10F4A 10F4C 10F82 10F84 11100-11102 11366-1136C 11370-11374
    1145E 16B30-16B36 1D185-1D189 1D1AA-1D1AD 1D242-1D244 1E000-1E006 1E008-1E018 1E01B-1E021
    1E023-1E024 1E026-1E02A 1E08F 1E130-1E136 1E2AE 1E2EC-1E2EF 1E4EF 1E5EE 1E6E3 1E6E6
    1E6EE-1E6EF 1E6F5 1E944-1E949"),
  (232, .ofText "315 31A 358 1DF6 302C 1E4EC-1E4ED"),
  (233, .ofText "35C 35F 362 1DFC"),
  (234, .ofText "35D-35E 360-361 1AEB 1DCD"),
  (240, .ofText "345")
]

/-- What a mark makes of the characters before it: each word is a character and
what it becomes with the mark. -/
def joinedBy : List (Nat × String) := [
  (0x300, "AÀ EÈ IÌ NǸ OÒ UÙ WẀ YỲ aà eè iì nǹ oò uù wẁ yỳ ¨῭ ÂẦ ÊỀ ÔỒ ÜǛ âầ êề ôồ üǜ ĂẰ ăằ ĒḔ
    ēḕ ŌṐ ōṑ ƠỜ ơờ ƯỪ ưừ ΑᾺ ΕῈ ΗῊ ΙῚ ΟῸ ΥῪ ΩῺ αὰ εὲ ηὴ ιὶ οὸ υὺ ωὼ ϊῒ ϋῢ ЕЀ ИЍ еѐ иѝ ἀἂ ἁἃ ἈἊ
    ἉἋ ἐἒ ἑἓ ἘἚ ἙἛ ἠἢ ἡἣ ἨἪ ἩἫ ἰἲ ἱἳ ἸἺ ἹἻ ὀὂ ὁὃ ὈὊ ὉὋ ὐὒ ὑὓ ὙὛ ὠὢ ὡὣ ὨὪ ὩὫ ᾿῍ ῾῝"),
  (0x301, "AÁ CĆ EÉ GǴ IÍ KḰ LĹ MḾ NŃ OÓ PṔ RŔ SŚ UÚ WẂ YÝ ZŹ aá cć eé gǵ ií kḱ lĺ mḿ nń oó pṕ
    rŕ sś uú wẃ yý zź ¨΅ ÂẤ ÅǺ ÆǼ ÇḈ ÊẾ ÏḮ ÔỐ ÕṌ ØǾ ÜǗ âấ åǻ æǽ çḉ êế ïḯ ôố õṍ øǿ üǘ ĂẮ ăắ ĒḖ
    ēḗ ŌṒ ōṓ ŨṸ ũṹ ƠỚ ơớ ƯỨ ưứ ΑΆ ΕΈ ΗΉ ΙΊ ΟΌ ΥΎ ΩΏ αά εέ ηή ιί οό υύ ωώ ϊΐ ϋΰ ϒϓ ГЃ КЌ гѓ кќ
    ἀἄ ἁἅ ἈἌ ἉἍ ἐἔ ἑἕ ἘἜ ἙἝ ἠἤ ἡἥ ἨἬ ἩἭ ἰἴ ἱἵ ἸἼ ἹἽ ὀὄ ὁὅ ὈὌ ὉὍ ὐὔ ὑὕ ὙὝ ὠὤ ὡὥ ὨὬ ὩὭ ᾿῎ ῾῞"),
  (0x302, "AÂ CĈ EÊ GĜ HĤ IÎ JĴ OÔ SŜ UÛ WŴ YŶ ZẐ aâ cĉ eê gĝ hĥ iî jĵ oô sŝ uû wŵ yŷ zẑ ẠẬ ạậ
    ẸỆ ẹệ ỌỘ ọộ"),
  (0x303, "AÃ EẼ IĨ NÑ OÕ UŨ VṼ YỸ aã eẽ iĩ nñ oõ uũ vṽ yỹ ÂẪ ÊỄ ÔỖ âẫ êễ ôỗ ĂẴ ăẵ ƠỠ ơỡ ƯỮ ưữ"),
  (0x304, "AĀ EĒ GḠ IĪ OŌ UŪ YȲ aā eē gḡ iī oō uū yȳ ÄǞ ÆǢ ÕȬ ÖȪ ÜǕ äǟ æǣ õȭ öȫ üǖ ǪǬ ǫǭ ȦǠ ȧǡ
    ȮȰ ȯȱ ΑᾹ ΙῙ ΥῩ αᾱ ιῑ υῡ ИӢ УӮ иӣ уӯ ḶḸ ḷḹ ṚṜ ṛṝ"),
  (0x306, "AĂ EĔ GĞ IĬ OŎ UŬ aă eĕ gğ iĭ oŏ uŭ ȨḜ ȩḝ ΑᾸ ΙῘ ΥῨ αᾰ ιῐ υῠ АӐ ЕӖ ЖӁ ИЙ УЎ аӑ еӗ жӂ
    ий уў ẠẶ ạặ"),
  (0x307, "AȦ BḂ CĊ DḊ EĖ FḞ GĠ HḢ Iİ MṀ NṄ OȮ PṖ RṘ SṠ TṪ WẆ XẊ YẎ ZŻ aȧ bḃ cċ dḋ eė fḟ gġ hḣ
    mṁ nṅ oȯ pṗ rṙ sṡ tṫ wẇ xẋ yẏ zż ŚṤ śṥ ŠṦ šṧ ſẛ ṢṨ ṣṩ 𐗒𐗉 𐗚𐗤"),
  (0x308, "AÄ EË HḦ IÏ OÖ UÜ WẄ XẌ YŸ aä eë hḧ iï oö tẗ uü wẅ xẍ yÿ ÕṎ õṏ ŪṺ ūṻ ΙΪ ΥΫ ιϊ υϋ ϒϔ
    ІЇ АӒ ЕЁ ЖӜ ЗӞ ИӤ ОӦ УӰ ЧӴ ЫӸ ЭӬ аӓ её жӝ зӟ иӥ оӧ уӱ чӵ ыӹ эӭ ії ӘӚ әӛ ӨӪ өӫ"),
  (0x309, "AẢ EẺ IỈ OỎ UỦ YỶ aả eẻ iỉ oỏ uủ yỷ ÂẨ ÊỂ ÔỔ âẩ êể ôổ ĂẲ ăẳ ƠỞ ơở ƯỬ ưử"),
  (0x30A, "AÅ UŮ aå uů wẘ yẙ"),
  (0x30B, "OŐ UŰ oő uű УӲ уӳ"),
  (0x30C, "AǍ CČ DĎ EĚ GǦ HȞ IǏ KǨ LĽ NŇ OǑ RŘ SŠ TŤ UǓ ZŽ aǎ cč dď eě gǧ hȟ iǐ jǰ kǩ lľ nň oǒ
    rř sš tť uǔ zž ÜǙ üǚ ƷǮ ʒǯ"),
  (0x30F, "AȀ EȄ IȈ OȌ RȐ UȔ aȁ eȅ iȉ oȍ rȑ uȕ ѴѶ ѵѷ"),
  (0x311, "AȂ EȆ IȊ OȎ RȒ UȖ aȃ eȇ iȋ oȏ rȓ uȗ"),
  (0x313, "ΑἈ ΕἘ ΗἨ ΙἸ ΟὈ ΩὨ αἀ εἐ ηἠ ιἰ οὀ ρῤ υὐ ωὠ"),
  (0x314, "ΑἉ ΕἙ ΗἩ ΙἹ ΟὉ ΡῬ ΥὙ ΩὩ αἁ εἑ ηἡ ιἱ οὁ ρῥ υὑ ωὡ"),
  (0x31B, "OƠ UƯ oơ uư"),
  (0x323, "AẠ BḄ DḌ EẸ HḤ IỊ KḲ LḶ MṂ NṆ OỌ RṚ SṢ TṬ UỤ VṾ WẈ YỴ ZẒ aạ bḅ dḍ eẹ hḥ iị kḳ lḷ mṃ
    nṇ oọ rṛ sṣ tṭ uụ vṿ wẉ yỵ zẓ ƠỢ ơợ ƯỰ ưự"),
  (0x324, "UṲ uṳ"),
  (0x325, "AḀ aḁ"),
  (0x326, "SȘ TȚ sș tț"),
  (0x327, "CÇ DḐ EȨ GĢ HḨ KĶ LĻ NŅ RŖ SŞ TŢ cç dḑ eȩ gģ hḩ kķ lļ nņ rŗ sş tţ"),
  (0x328, "AĄ EĘ IĮ OǪ UŲ aą eę iį oǫ uų"),
  (0x32D, "DḒ EḘ LḼ NṊ TṰ UṶ dḓ eḙ lḽ nṋ tṱ uṷ"),
  (0x32E, "HḪ hḫ"),
  (0x330, "EḚ IḬ UṴ eḛ iḭ uṵ"),
  (0x331, "BḆ DḎ KḴ LḺ NṈ RṞ TṮ ZẔ bḇ dḏ hẖ kḵ lḻ nṉ rṟ tṯ zẕ"),
  (0x338, "<≮ =≠ >≯ ←↚ →↛ ↔↮ ⇐⇍ ⇒⇏ ⇔⇎ ∃∄ ∈∉ ∋∌ ∣∤ ∥∦ ∼≁ ≃≄ ≅≇ ≈≉ ≍≭ ≡≢ ≤≰ ≥≱ ≲≴ ≳≵ ≶≸ ≷≹ ≺⊀ ≻⊁
    ≼⋠ ≽⋡ ⊂⊄ ⊃⊅ ⊆⊈ ⊇⊉ ⊑⋢ ⊒⋣ ⊢⊬ ⊨⊭ ⊩⊮ ⊫⊯ ⊲⋪ ⊳⋫ ⊴⋬ ⊵⋭"),
  (0x342, "¨῁ αᾶ ηῆ ιῖ υῦ ωῶ ϊῗ ϋῧ ἀἆ ἁἇ ἈἎ ἉἏ ἠἦ ἡἧ ἨἮ ἩἯ ἰἶ ἱἷ ἸἾ ἹἿ ὐὖ ὑὗ ὙὟ ὠὦ ὡὧ ὨὮ ὩὯ ᾿῏
    ῾῟"),
  (0x345, "Αᾼ Ηῌ Ωῼ άᾴ ήῄ αᾳ ηῃ ωῳ ώῴ ἀᾀ ἁᾁ ἂᾂ ἃᾃ ἄᾄ ἅᾅ ἆᾆ ἇᾇ Ἀᾈ Ἁᾉ Ἂᾊ Ἃᾋ Ἄᾌ Ἅᾍ Ἆᾎ Ἇᾏ ἠᾐ ἡᾑ ἢᾒ
    ἣᾓ ἤᾔ ἥᾕ ἦᾖ ἧᾗ Ἠᾘ Ἡᾙ Ἢᾚ Ἣᾛ Ἤᾜ Ἥᾝ Ἦᾞ Ἧᾟ ὠᾠ ὡᾡ ὢᾢ ὣᾣ ὤᾤ ὥᾥ ὦᾦ ὧᾧ Ὠᾨ Ὡᾩ Ὢᾪ Ὣᾫ Ὤᾬ Ὥᾭ Ὦᾮ Ὧᾯ ὰᾲ
    ὴῂ ὼῲ ᾶᾷ ῆῇ ῶῷ"),
  (0x653, "اآ"),
  (0x654, "اأ وؤ يئ ہۂ ےۓ ەۀ"),
  (0x655, "اإ"),
  (0x93C, "नऩ रऱ ळऴ"),
  (0x9BE, "েো"),
  (0x9D7, "েৌ"),
  (0xB3E, "େୋ"),
  (0xB56, "େୈ"),
  (0xB57, "େୌ"),
  (0xBBE, "ெொ ேோ"),
  (0xBD7, "ஒஔ ெௌ"),
  (0xC56, "ెై"),
  (0xCC2, "ೆೊ"),
  (0xCD5, "ಿೀ ೆೇ ೊೋ"),
  (0xCD6, "ೆೈ"),
  (0xD3E, "െൊ േോ"),
  (0xD57, "െൌ"),
  (0xDCA, "ෙේ ොෝ"),
  (0xDCF, "ෙො"),
  (0xDDF, "ෙෞ"),
  (0x102E, "ဥဦ"),
  (0x1B35, "ᬅᬆ ᬇᬈ ᬉᬊ ᬋᬌ ᬍᬎ ᬑᬒ ᬺᬻ ᬼᬽ ᬾᭀ ᬿᭁ ᭂᭃ"),
  (0x3099, "うゔ かが きぎ くぐ けげ こご さざ しじ すず せぜ そぞ ただ ちぢ つづ てで とど はば ひび ふぶ へべ ほぼ ゝゞ ウヴ カガ キギ クグ ケゲ コゴ
    サザ シジ スズ セゼ ソゾ タダ チヂ ツヅ テデ トド ハバ ヒビ フブ ヘベ ホボ ワヷ ヰヸ ヱヹ ヲヺ ヽヾ"),
  (0x309A, "はぱ ひぴ ふぷ へぺ ほぽ ハパ ヒピ フプ ヘペ ホポ"),
  (0x110BA, "𑂙𑂚 𑂛𑂜 𑂥𑂫"),
  (0x11127, "𑄱𑄮 𑄲𑄯"),
  (0x1133E, "𑍇𑍋"),
  (0x11357, "𑍇𑍌"),
  (0x113B8, "𑏅𑎸"),
  (0x113BB, "𑎄𑎅"),
  (0x113C2, "𑎋𑎎 𑏅𑏂"),
  (0x113C9, "𑎂𑎃 𑎐𑎑 𑏅𑏉"),
  (0x114B0, "𑒹𑒼"),
  (0x114BA, "𑒹𑒻"),
  (0x114BD, "𑒹𑒾"),
  (0x115AF, "𑖸𑖺 𑖹𑖻"),
  (0x11930, "𑤵𑤸"),
  (0x1611E, "𖄡𖄞"),
  (0x1611F, "𖄦 𖄡𖄦 𖄢𖄧 𖄩𖄤"),
  (0x16120, "𖄨 𖄡𖄨"),
  (0x16129, "𖄡𖄩"),
  (0x16D67, "𖵣𖵩 𖵨𖵧 𖵩𖵪")
]

def markClass (c : Char) : Nat :=
  ((markClasses.find? fun (_, marks) => marks.contains c).map (·.1)).getD 0

-- ---------------------------------------------------------------------------
-- Joints
-- ---------------------------------------------------------------------------

structure Joint where
  first : Char
  second : Char
  whole : Char

def joints : List Joint :=
  joinedBy.flatMap fun (second, text) =>
    (words text.toList).filterMap fun word =>
      match word with
      | [first, whole] => some { first, second := Char.ofNat second, whole }
      | _ => none

/-- The parts of a Korean syllable, of which the first may be a syllable again. -/
def syllableParts? (c : Char) : Option (Char × Char) :=
  if 0xAC00 ≤ c.toNat ∧ c.toNat < 0xAC00 + 19 * 588 then
    let n := c.toNat - 0xAC00
    if n % 28 = 0 then some (Char.ofNat (0x1100 + n / 588), Char.ofNat (0x1161 + n % 588 / 28))
    else some (Char.ofNat (0xAC00 + n / 28 * 28), Char.ofNat (0x11A7 + n % 28))
  else none

def syllable? (first second : Char) : Option Char :=
  let a := first.toNat
  let b := second.toNat
  if 0x1100 ≤ a ∧ a < 0x1100 + 19 ∧ 0x1161 ≤ b ∧ b < 0x1161 + 21 then
    some (Char.ofNat (0xAC00 + (a - 0x1100) * 588 + (b - 0x1161) * 28))
  else if 0xAC00 ≤ a ∧ a < 0xAC00 + 19 * 588 ∧ (a - 0xAC00) % 28 = 0 ∧
      0x11A7 < b ∧ b < 0x11A7 + 28 then
    some (Char.ofNat (a + (b - 0x11A7)))
  else none

def parts? (c : Char) : Option (Char × Char) :=
  match syllableParts? c with
  | some parts => some parts
  | none => (joints.find? (·.whole == c)).map fun joint => (joint.first, joint.second)

def whole? (first second : Char) : Option Char :=
  match syllable? first second with
  | some whole => some whole
  | none =>
    (joints.find? fun joint => joint.second == second && joint.first == first).map (·.whole)

-- ---------------------------------------------------------------------------
-- Composing
-- ---------------------------------------------------------------------------

def apart (depth : Nat) (c : Char) : List Char :=
  match depth with
  | 0 => [c]
  | depth + 1 =>
    match parts? c with
    | some (first, second) => apart depth first ++ [second]
    | none => [c]

def sorted (marks : List (Nat × Char)) : List Char :=
  (marks.mergeSort fun a b => a.1 ≤ b.1).map (·.2)

/-- Puts each row of marks into order; `marks` is the row that has begun. -/
def ordered (marks : List (Nat × Char)) : List Char → List Char
  | [] => sorted marks
  | c :: rest =>
    match markClass c with
    | 0 => sorted marks ++ c :: ordered [] rest
    | k => ordered (marks ++ [(k, c)]) rest

/-- Joins what follows to `base`. Of the marks that could not be joined, `kept`,
the last has the class `last`; only a mark of a higher class reaches over them. -/
def joinedTo (base : Char) (kept : List Char) (last : Nat) : List Char → List Char
  | [] => base :: kept
  | c :: rest =>
    let k := markClass c
    match if kept.isEmpty || last < k then whole? base c else none with
    | some whole => joinedTo whole kept last rest
    | none =>
      if k = 0 then base :: kept ++ joinedTo c [] 0 rest
      else joinedTo base (kept ++ [c]) k rest

/-- Marks in front of the first other character stay alone. -/
def joined : List Char → List Char
  | [] => []
  | c :: rest => if markClass c = 0 then joinedTo c [] 0 rest else c :: joined rest

/-- The composed form of a text. No character is made of more than four. -/
def composed (cs : List Char) : List Char :=
  joined (ordered [] (cs.flatMap (apart 3)))

end FeatureFlow.Text
