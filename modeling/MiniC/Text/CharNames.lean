import MiniC.Text.Numbers

/-!
# Names of characters

The names of the letters, punctuation and symbols in common use. A line with a sign and a number gives the
code of the name on the next line; each further name has the next code. A name is written without the words at its
beginning and at its end that it shares with the name before; the digits in front of it are their numbers, without
zeros behind. For a word that occurs often the listing has its place among `frequent`, as a number whose digits are small letters.
Two characters that often follow each other are written as one sign; `pairs` has each sign and what it stands for.
-/

namespace MiniC

namespace CharNames

def pairs : String := "~%#| d`$2_
4^ i] g[
5? h>ER= f<.,;IN:% .c!,d*+$1*# ) c(
2' e&
3% a$
0# b!
1"

def frequent : String := "WITH LETT> SMALL CAPITAL AND RIGHT LEFT ARROW ABOVE BLACK DOUBLE WHITE RIGHTWARDS DOWN LEFTWARDS HEAVY DOT SIGN V>TICAL DASIA PSILI HOOK LIGHT SYMBOL HORIZONTAL DOWNWARDS EQUAL STROKE CIRCLE TILDE LESS-THAN BELOW GREAT>-THAN UPWARDS TWO BAR ACUTE SQUARE MARK BARB CIRCUMFLEX OXIA VARIA GRAVE NOT ONE LOW> FACE THREE DIA>ESIS L;E HARPOON REV>SED UPP> FOUR BRACKET HALF MACRON OPEN BREVE TRIANGLE TURNED CIRCLED ANGLE EAST EQUALS LONG R;G FIVE NORTH OP>ATOR P>ISPOMENI TOP S;GLE WEST PLUS ;V>TED SOUTH SUBSET SUP>SET ACCENT DIAMOND EIGHT LAT; SIX TRIPLE BOTTOM DASH CARON M;US OV> SEVEN SHORT TRIANGLE-HEADED CLOSED HEART ;T>SECTION IOTA OMEGA RIGHT-PO;T;G SLANTED STAR TAIL CEDILLA CROSS FOR MIDDLE N;E UNION UPSILON BOX COMMA HORN LEFT-PO;T;G MEDIUM ALPHA ANTICLOCKWISE AST>ISK CURLY DIAGONAL END LOW SOLIDUS TACK TEN UND>BAR YPOGEGRAMMENI DIGIT PO;T;G PRECEDES QUAD SEPARATOR SUCCEEDS CLOCKWISE DIALYTIKA EYES HAND LOGICAL NUMB> REV>SE STOP BULLET COLON DOTS ETA SMIL;G Z>O ALMOST ARC ARROWHEAD BESIDE CORN> CROSS;G DOES EPSILON EXCLAMATION FROM ;TEGRAL OV>BAR PO;TED QUESTION SCRIPT TELEPHONE WAVE BALL CURL DESCEND> DOWN-PO;T;G FORM MULTIPLICATION NORMAL PARENTHESIS PRODUCT QUOTATION SPACE TIP UP-PO;T;G ARROWS CAT CENTRE CHE DELTA DOTTED DOUBLE-STRUCK GHE IMAGE KEY KOMI LARGE MAN MOON OGONEK OMICRON PAGE QUART> RHO SLASH SOUND SUBGROUP THE TIMES TONE TWELVE TWO-HEADED CHECK DIVISION EIGHTHS ELEVEN EQUIVALENT EXTENSION FULL GLOTTAL JAPANESE JOT MOUTH NEGATIVE NOR NUM>AL PROSGEGRAMMENI RETROFLEX RIS;G SHELL SIGMA THROUGH BALLOT CONTA;S CONTROL DIGRAPH EIGHTH ELEMENT ENVELOPE FALL;G FLAG GAMMA GREEK HUNDRED IDEOGRAPHIC ;FORMATION ;SIDE LEG LIGATURE MUSICAL N-ARY NOTATION OUTL;ED OV>LAY PARALLEL P>SON ROTATED SHADOWED SIMILAR SUN THOUSAND VRACHY APOSTROPHE APPROXIMATELY BACKSLASH BLACK-LETT> BLUE BRIDGE BUT CARET CLOUD DEL DEVICE DOUBLE-L;E EIGHTEEN EMPTY ESH FEED FEMALE FILE FRACTION HIGH ICE ;DEX ;DICATOR JO;ED KEYBOARD LOOP LOZENGE LUNATE MALE MEASURED NEITH> NOTE ORIG;AL QUADRUPLE RAISED SCHWA SIXTEEN SOFT SQUARED STILE TEXT TONOS TORTOISE TWENTY UMBRELLA YANG Y; ZHE ZIGZAG ABKHASIAN ACKNOWLEDGE BABY BELL BETWEEN BLOCK BUILD;G CHART CLOCK CRESCENT CURVED DOLLAR DOTLESS EARTH ELECTRIC ESCAPE FIFTEEN FIRST FISH FLOW> FOURTEEN FROWN;G HANDS HARD HORSE HOUSE ;F;ITY K;G LEFT-TO-RIGHT LIGHTN;G MOBILE MODIFI> MOUSE N;ETEEN OPEN;G PIECE PO;T POSTAL PRIME PUNCTUATION QUADRANT RA; RECEIV> RETURN RIBBON RIGHT-TO-LEFT ROMAN SANS-S>IF SEMICOLON SEVENTEEN STEM SUMMATION SWEAT TABULATION TEARDROP-SPOKED THETA THIRTEEN TICK TRANSMISSION W;D WITHOUT WOMAN AMP>SAND BACKHAND BACKSLANTED BANK BARRED BETA BOLD BOTTLE BOWTIE BROKEN BUTTON CAM>A CANCELLATION CARD CENTRED CHARACT> COLD COMB;;G COMM>CIAL COMPOSITION COMPUT> CONTA; CRY;G CYRILLIC DASHED DEGREE DELETE DISK DIVIDE DOCUMENT FIFTY FILL FLORAL FOLD> FORK GREEN GROUP HAMM> HEAD HOURGLASS HYPHEN IDENTICAL IOTIFIED JO;> KAPPA KISS KISS;G KNIFE KOPPA LAST LEAF L;K LOCK MACH;E MONKEY MOUNTA; NO-BREAK NOTCHED NOTES ORANGE ORNAMENT OV>LAPP;G OV>L;E PART PENCIL PENTAGON PHONE P;WHEEL POLE POMMEE POUT;G QUART>S RAYS RECORD RECTANGLE RECYCL;G RELATION RICE SALTIRE SCREEN SEMICIRCLE SEMICIRCULAR S>IFS SHARP SHIFT SHOE SILHOUETTE S;GLE-L;E SKULL SNOW SNOWMAN SPEAK> SPEECH START STRAIGHT SUBSCRIPT SUBSTITUTE SUP>SCRIPT THEN TOP-LIGHTED TREE TRIANGULAR TRUE TURNSTILE VANE VOICED VULGAR WAT> WAVES WOMANS Y>U ACCOUNT ACTIVATE ANTENNA APPROXIMATE ARCHAIC AROUND ASCEND;G BACKSPACE BALLOON BALLOON-SPOKED BEAMED BEH;D BENZENE BILABIAL B;ARY BISHOP BLACK-FEATH>ED BLOSSOM BOOKMARK BOUQUET BUBBLE BUILD;GS BYELORUSSIAN-UKRA;IAN CALENDAR CANCEL CARRIAGE CASTLE CHRISTMAS CITYSCAPE CONSTANT CONSTRUCTION CONTA;;G CONTOUR COPRODUCT COPYRIGHT CORN>S CROSSBONES CROSSED CROSSHATCH CURRENCY CURRENT CURV;G DAGG> DECIMAL DECORATION DEPART;G DESCEND;G DESKTOP DIGAMMA DIRECT DIRECTIONAL DIRECTLY DISAPPO;TED DIVIDED DOUBLED DRAGON DRAUGHTS DROPLET ELLIPSIS ENCLOS;G ENQUIRY EUROPEAN FIGURE F;G>S FISHHOOK FLOPPY FOUNTA; FRENCH FUNCTION FUNCTIONAL GEOMETRICALLY GIBBOUS GREAT> GR;N;G GROUND HANGZHOU HEAD;G HEART-SHAPED HEARTS HIGH-REV>SED-9 HOCKEY HOMOTHETIC HOOKED HYPHEN-M;US ;HIBIT ;S>TION ;TEGRATION IT>ATION IZHITSA KEYCAP KNIGHT KORONIS LARG> LENTICULAR LETT>S LOCK;G-SHIFT LOW>ED MEMB> MICROPHONE MIDDLE-WELSH MULTIMAP NATIONAL NEGATED NEPTUNE NESTED NEWL;E NEWSPAP> OFFICE OPTICAL ORD;AL PAIRED PALOCHKA PARAGRAPH PARENTHESIZED PEDESTAL P>CENT P>PENDICULAR P>SONAL PETALLED PICTURE PILCROW PITCHFORK PO;T> POSITION PRECEDE PR;T> PROPORTION PUSHP; RABBIT RAC;G RACQUET RAIS;G RELIEVED REPLACEMENT RIGHT-SHADOWED ROUNDED SCHOOL SECTION SEMIDIRECT SHORTS SIDEWAYS SLEEP;G SMALL> SOURCE SPH>ICAL SPIRAL SQUARES SQUIGGLE STAMPED STROKES SUCCEED SUNGLASSES SUNRISE SYNCHRONOUS TENNIS THIRDS THOUGHT THOUSANDS THREE-D THUMBS THUND> TIGHTLY-CLOSED TONGUE TOPBAR TROPICAL TYPE-3 TYPE-4 TYPE-5 TYPE-6 UKRA;IAN UND>TIE UNIV>SAL URANUS VICTORY WAN;G WAV;G WAX;G W;K;G WRIT;G"

def listing : String := "@32
gs
fz#m+gr
fi r+mc+wt
ob
ju
g]p+f
en
cx r
eh
vn
ic=k
es
ex=q!bt!bi!bw!c.cq!dg!dn!de!ed
fm
nn
be r+cn+bg
ge#m
ot AT
df ,A&B&C&D&E&F&G&H&I&J&K&L&M&N&O&P&Q&R&S&T&U&V&W&X&Y&Z
g#l)d
fj's
f#l)d
bo|c
er#y
br|c
df)*A&B&C&D&E&F&G&H&I&J&K&L&M&N&O&P&Q&R&S&T&U&V&W&X&Y&Z
g'o)d
s#y
f'o)d
bd
@160
qf]s
cy=z#m
CENT r+POUND+tv+YEN
ok#j
xp r
bx
tq r
FEM;;E wn kq
ej k)l]r#m
bs r
lf pp
REGIST>ED r
cf
pa r+PLUS-M;US
ru#i!bw
bk|c
MICRO r+wy
ec q
dz
ru#t
MASCUL;E wn kq
dv k)l]r#m
sd km#t?m&ce(bw qu
cy]e#m
df ,A~r[bk[bo[bd[bx[cp^&AE&C:dz&E~r[bk[bo[bx&I~r[bk[bo[bx&ETH&N~d&O~r[bk[bo[bd[bx
gn r
df ,O~b&U~r[bk[bo[bx&Y~k&THORN!c*rg S&A~r[bk[bo[bd[bx[cp^&AE&C:dz&E~r[bk[bo[bx&I~r[bk[bo[bx&ETH&N~d&O~r[bk[bo[bd[bx
hx r
df)*O~b&U~r[bk[bo[bx&Y~k&THORN&Y~x!,A%)f!4<A%)h!4<A:hj!4<C~k!4<C~o!4<C:q^!5<C:dk!4.2,D!4<D~b!4<E%)f!4<E%)h!4<E:q^!5<E:hj!4<E:dk!4<G~o!4<G%)h!4<G:q^!5<G:dz!4<H~o!4<H~b!4<I~d!4<I%)f!4<I%)h!4<I:hj!4<I:q^!c*md I!d jg IJ!2<J~o!4<K:dz!4c&KRA!,L~k!4<L:dz!4<L:dk!4<L%'c q!5<L~b!4<N~k!4<N:dz!4<N:dk!4c_PRECEDED BY ju!,ENG!2<O%)f!4<O%)h!4<O:k#k!5.d jg OE!2<R~k!4<R:dz!4<R:dk!4<S~k!4<S~o!4<S:dz!4<S:dk!4<T:dz!4<T:dk!4<T~b!4<U~d!4<U%)f!4<U%)h!4<U%)p^!5<U:k#k!5<U:hj!4<W~o!4.2,Y!4<Y~x&Z~k!4<Z:q^!5<Z:dk!4c&co S&B~b!,B:v[yp!4<ht|g!3.d#)g O&C:v!4<AFRICAN D&D:v[yp!4c&cj]z!d#)a E&ld&cg E&F:v!4.2,G&iz!c*HV!,dt&I~b&K:v!4c&L~j&LAMBDA~b!d#)j M&N:g v!c*N%)o= jf!,O%'c#d[ei!4<OI!2<P:v!4.b YR!,ht#i!3<ki!b)a ki kt!c*T:PALATAL v!1,T%!4.1,T:il&U%'i!4.d#'f&V:v&2Y!4<Z~b!4<EZH_ca!3c_a|y!b#i~b!,ht)q!3.b)y^d=k~b(WYNN(DENTAL CLICK(1LAT>AL(1ALVEOLAR(1il!,DZ:dk&2D%)*Z!2c*DZ!,LJ&L%)*J!c*LJ!,NJ&N%)*J!c*NJ!,A:dk!4.2,I!4.2,O!4.2,U!4<U~x')f!6<U~x'#k!6<U~x'|k!6<U~x'#r!6c&cj E!,A~x')f!6.2,A:q^!7.1,AE%!4<G~b!4<G:dk!4.2,K!4<O:hj!4<O:hj')f!6<EZH:dk!4c&2J!,DZ&D%)*Z!c*DZ!,G~k!4<HWAIR&WYNN&N~r!4<A%)p^'#k!7.1,AE%!4.1,O~b'!6<A:k#r!5<A%)y)h!5<E:k#r!5<E%)y)h!5<I:k#r!5<I%)y)h!5<O:k#r!5<O%)y)h!5<R:k#r!5<R%)y)h!5<U:k#r!5<U%)y)h!5<S%'h#f!5.3,T!5<YOGH!2<H:dk!4<N%)o= jf!c*D:gj!,OU!2<Z:v!4<A:q^!5<E:dz!4<O~x')f!6.2,O~d!6<O:q^!5<O:q^')f!7.1,Y%!4c&L:gj&2N&2T&md J&DB^t&1QP!,A~b&2C!4<L~j&T%'p#b!c*S:SWASH|y&3Z!,id=k!3<B~b&U#j&cj V&E~b!4.2,J!4.d#) Q:v|y!4c#!,R~b!4.2,Y!4c&cj A&el&1cj&B:v&cg O&C:gj&D:dy[v&ca E&ld_a v&cg E&2ca
6a v&dq)a)g E&md J~b&G:v&gf G!1b)|!c*iz&RAMS'i&cj H&H:v&2HENG&I~b&dt!b)| I!c*L%'c#d[BELT[il v&LEZH&cj M[a)o jf&M:v&1N:g[1il!b)| N!c*of O!b)| OE!c*dq|u&PHI&cj R[a)o jf
6v&R%)o jf[dy[uu&3ca!b)| R_1cy!c*S:v&ki&md J~b' v&SQUAT)a ki&ki:gj&cj T&T:il v&U#j&ef&V:v&cj V_W_Y!1b)|!c*Z:il v[gj&EZH_a]j!b^d=k(PHARYNGEAL sc FRICATIVE(cy^d=k(STRETCHED C(sv CLICK(c| B!c*dq)g E!b)| G:v_H!c*J:CROSSED-TAIL&cj K!b)| L!c*Q:v!b^d=k~b(4ca!c*DZ^t&1DEZH&DZ^t:gj&TS^t&1TESH&TC^t:gj&FENG^t&1LS&1LZ!b sv P>CUSSIVE(1BIDENTAL!c#)j H:uu
7e|y
mw#) H_a v&J&R&1cj[a v&d)y R&W&Y(nd(1k(cj'h(ju(ca'h(f)e)p(2g(id=k(2ca(g=t(1f(1UP(1n(bo|c
dk
mw*s#y(cf(bk|c(1br(er s#y&cf&br|c&1bk(ry=m(2ce(op=)e)p&2g(UP't(1n(cx r(1dl
ch
q^+cp
hj
c#d
k#k|c
mw*RHOTIC v(ea|c(c^z&L&S&X&ca^d=k(EXTRA-HIGH?t#j(2kn(2MID(2er(2EXTRA-LOW(lo ub?t#m(3ln(VOIC;G(UNASPIRATED(k ju(er n=t&1UP&1g&1f&cp(ec#r|c&2k_1bk(er#d(lc=m(BEG; kn?t(2eq(1BEG;'r(2eq(SHELF(1cg(er]?
os#r|.1bk!1bo!bd!cf!ql!ch!q^!bx!v^!1cp!k#k|.dk!s#y^!3k(br|.CANDRAB;DU!cy)h!cj'h^!1eh!2ca!eh^=!br|c#f!2bk!1g't!2f!g)l^!ei!g)e)p#f!1UP't!2n!1cx r!2dl!1PALATALIZED v!2il!1q!1bx!1cp!1eh!dz!hj!s#y#f!1jz!1cy k ARCH!1dk!1bo|.1ch!2cy!1bd!1cf!er#y!2k!bd jl!1do#b!2co!1do's!2co!f)e)p#f!1cy jz!1bl!1SEAGULL!X^!s#d!k ql!br?t#m!2bk!ja)t(vv(fe lj(ew!jz^!cn r#f!1k s#y!1g)l!bs#d^!1vl!1fr#a TO!g=?#f!2bh!GRAPHEME ps!f=t^!1g)e)p!F>MATA!X#f!1g=t!2f&1e UP=t(ce)p^!q^=!en#f!1k)p!lq^!k)h#f(ch(cf&bf(bd(cy)h(m?#f!df)*A_E_I_O_U_C_D_H_M_R_T_V_X
ja ,HETA!2<sm SAMPI!3.ij r!2bu!,PAMPHYLIAN ue!3c
@890!ew!c)a kv^o x(3ha(4ca!ge#m!,YOT
@900!lj!1fe!1d#'l%!ANO TELEIA!,fy:lj&2fo&2dt
@908&2hk
@910&2ef&2du!1c*dt:fe'!d#'l&og&iz&gz&fy&ZETA&fo&nu&dt&pt&LAMDA&MU&NU&XI&hk&PI&hn
@931&io&TAU&ef&PHI&CHI&PSI&du&dt:fe&2ef!c#'l:lj&2fy&2fo&2dt&1ef:fe'&el&og&iz&gz&fy&ZETA&fo&nu&dt&pt&LAMDA&MU&NU&XI&hk&PI&hn&F;AL^o&io&TAU&ef&PHI&CHI&PSI&du&dt:fe&2ef&hk:lj&2ef&2du!d KAI x!1og!1nu!1ef:v&2bk'&3bx!1PHI!1PI!1KAI!b sm px!3.b STIGMA!2.b ue!2.b px!2.b SAMPI!2c
COPTIC ,SHEI!2<FEI!2<KHEI!2<HORI!2<GANGIA!2<SHIMA!2<DEI!2c
ja pt x!1hn!1kv^o!b YOT!d nu x!1kv=y!3ca!,SHO!2.d kv^o x(b SAN!2.hn~b x!1d)a kv^o(3ha(4ca
oy ,IE~r&IO&DJE&GJE&yv IE&DZE&te I&YI&JE&LJE&NJE&TSHE&KJE&I~r&do U&DZHE&A&BE&VE&hc&DE&IE&lp&ZE&I&1do&KA&EL&EM&EN&O&PE&>&ES&TE&U&EF&HA&TSE&gy&SHA&SHCHA&mo r&sh&lf r&E&YU&YA!c*A&BE&VE&hc&DE&IE&lp&ZE&I&1do&KA&EL&EM&EN&O&PE&>&ES&TE&U&EF&HA&TSE&gy&SHA&SHCHA&mo r&sh&lf r&E&YU&YA&IE~r&IO&DJE&GJE&yv IE&DZE&te I&YI&JE&LJE&NJE&TSHE&KJE&I~r&do U&DZHE!,du!2<YAT!2<pr E!3<LITTLE YUS!3.2,pr!4.1,BIG!3.2,pr!4<KSI!2<PSI!2<FITA!2<vs!2<vs:k#r|.6<UK!2<ROUND|u!3<du:TITLO!4<OT!2<px!2.yj r
os oy TITLO(PALATALIZATION(t PNEUMATA(1u(POKRYTIE(jb yj r(1MILLIONS
oy ,do I:dy!5<SEMISOFT r!3<>:nw!4<hc:UPTURN!4<hc~b!4<hc%'c v!5<lp:gk!4.2,ZE!4.2,KA!4<KA:s#b!5.1,KA%!4<BASHKIR KA!3<EN:gk!4.d jg EN?.3<PE%'c v!5<lr HA!3<ES:gk!4.2,TE!4<rr U!3<rr U~b!5<HA:gk!4.d jg TE TSE!3<gy:gk!4<gy:s#b!5<SHHA!2<lr]y!3<lr]y:gk!5.b wp!,lp%)h!4<KA:v!4<EL:dy!4<EN:v!4<EN:dy!4<KHAKASSIAN]y!3<EM:dy!4c&wp!,A%)h!4<A~x!4.d jg A IE!3<IE%)h!4<ld!2<ld~x!4.2,lp!4.2,ZE!4<lr DZE!3<I%)f!4<I~x!4.2,O!4<of O!3<of O~x!5.2,E!4<U%)f!4<U~x!4<U:k#k!5<gy~x!4<hc:gk!4<sh~x!4<hc~b' v!6.1,HA%!4<HA~b!4<hf DE!3<hf DJE!3<hf ZJE!3<hf DZJE!3<hf LJE!3<hf NJE!3<hf SJE!3<hf TJE!3.d#)a ZE!3<EL:v!4<LHA!2<RHA!2<YAE!2<QA!2<WE!2<ALEUT KA!3<EL%'c v!5.3,EN!5<PE:gk!4.2,SHHA!4<EN:g v!5<DZZHE!2<DCHE!2<EL:gk!4c
@7680
df ,A%)p#f!5<B:q^!5<B:q#f!5.1,B~y!5<C:dz'#k!6<D:q^!5<D:q#f!5.1,D~y!5<D:dz!4<D~o#f!5<E%)f'#r!6<E%)f'#k!6<E~o#f!5.1,E~d!5<E:dz')h!6<F:q^!5<G%)f!4<H:q^!5<H:q#f!5<H~x!4<H:dz!4<H%)h#f!5.1,I~d!5<I~x'#k!6.1,K%!4<K:q#f!5.1,K~y!5.1,L:q!5<L:q#f')f!7<L~y#f!5.1,L~o!5<M~k!4<M:q^!5<M:q#f!5<N:q^!5<N:q#f!5.1,N~y!5.1,N~o!5<O~d'#k!6<O~d'#x!6<O%)f'#r!6<O%)f'#k!6.1,P%!4<P:q^!5.3,R!5<R:q#f!5<R:q#f')f!7<R~y#f!5<S:q^!5<S:q#f!5<S~k' q^!7.3,S:dk!7.3,S:q#f!8.2,T%!5<T:q#f!5.1,T~y!5.1,T~o!5.1,U~x!5.1,U~d!5.1,U~o!5<U~d'#k!6<U%)f'#x!6<V~d!4<V:q#f!5<W~r!4<W~k!4<W~x!4<W:q^!5<W:q#f!5<X:q^!5<X~x!4<Y:q^!5<Z~o!4<Z:q#f!5.1,Z~y!5c&3H&T~x&W%)p^&3Y&A:f)e)p&co S:q^
6ep#b
61kn!,rg S!c*gz!,A:q#f!5<A:v^!5<A~o'#k!6<A~o'#r!6<A~o' v^!7<A~o'#d!6<A~o' q#f!7<A%)h'#k!6<A%)h'#r!6<A%)h' v^!7<A%)h'#d!6<A%)h' q#f!7.2,E%!5<E:v^!5<E~d!4<E~o'#k!6<E~o'#r!6<E~o' v^!7<E~o'#d!6<E~o' q#f!7<I:v^!5<I:q#f!5.3,O!5<O:v^!5<O~o'#k!6<O~o'#r!6<O~o' v^!7<O~o'#d!6<O~o' q#f!7<O%'i'#k!6<O%'i'#r!6<O%'i' v^!7<O%'i'#d!6<O%'i' q#f!7.2,U%!5<U:v^!5<U%'i'#k!6<U%'i'#r!6<U%'i' v^!7<U%'i'#d!6<U%'i' q#f!7<Y~r!4<Y:q#f!5<Y:v^!5<Y~d!4<wd LL!3<wd V!3<Y:kt!4c
ja)#'l:u[t[u'#q[2t[u'#p[2t[u')t[2t!d#'l:u[t[u'#q[2t[u'#p[2t[u')t[2t!c*fy:u[t[u'#q[2t[u'#p[2t
@7960!,fy:u[t[u'#q[2t[u'#p[2t
@7968!c*fo:u[t[u'#q[2t[u'#p[2t[u')t[2t!,fo:u[t[u'#q[2t[u'#p[2t[u')t[2t!c*dt:u[t[u'#q[2t[u'#p[2t[u')t[2t!,dt:u[t[u'#q[2t[u'#p[2t[u')t[2t!c*hk:u[t[u'#q[2t[u'#p[2t
@8008!,hk:u[t[u'#q[2t[u'#p[2t
@8016!c#'f:u[t[u'#q[2t[u'#p[2t[u')t[2t
@8025!d#'f:t
@8027
6e#q
@8029
7bp
@8031
7ct!c*du:u[t[u'#q[2t[u'#p[2t[u')t[2t!,du:u[t[u'#q[2t[u'#p[2t[u')t[2t!c#'l~q[bp&fy~q[bp&fo~q[bp&dt~q[bp&hk~q[bp&ef~q[bp&du~q[bp
@8064&el:u''w[2t[2u'#q[4t[2u'#p[4t[2u')t[4t!d#'l:u'^k[2t[2u'#q[4t[2u'#p[4t[2u')t[4t!c*fo:u''w[2t[2u'#q[4t[2u'#p[4t[2u')t[4t!,fo:u'^k[2t[2u'#q[4t[2u'#p[4t[2u')t[4t!c*du:u''w[2t[2u'#q[4t[2u'#p[4t[2u')t[4t!,du:u'^k[2t[2u'#q[4t[2u'#p[4t[2u')t[4t!c#'l:jt[cf[bq''w[ew[1bp'
@8118[ct
6e'w!d#'l:jt[cf[bq[bp[ik!vv!ik!u!ct!1fe'!c*fo~q''w[ew[1bp'
@8134[ct
6e'w!,fy~q[bp&fo~q[bp[ik!u'#q&bp&ct!c*dt:jt[cf[fe'#q
7bp
@8150[ct[1fe'!,dt:jt[cf[bq[bp
@8157!t'#q&bp&ct!c#'f:jt[cf[fe'#q
7bp&hn:u[t&ef%)t[1fe'!d#'f:jt[cf[bq[bp&hn:t!fe'#q&bp!bq
@8178!c*du~q''w[ew[1bp'
@8182[ct
6e'w!,hk~q[bp&du~q[bp[ik!bp!t
@8192
EN=a+EM
EN]s+EM+THREE-P>-EM+FOUR-P>-EM+SIX-P>-EM+us+ne+TH;+HAIR+fq WIDTH(NON-JO;>(ps
mt#m+nk
pp+NON-BREAK;G
us|j+EN+EM
y#j
k s#y!1er
g)v]r#m$3f`cv LOW-9!2vj`g k$3f`k LOW-9!2vj
ty+k
fl+ry
bt q LEAD>`bi
y uo
HYPHENATION nb
by=b+wq
mt EMBEDD;G+nk
POP ug FORMATT;G
mt OV>RIDE+nk
NARROW qf]s
P> MILLE r!1eu js
nd+k+dh+ca!1k!1dh
kb
cv'j)l]r#m!3dv+REF>ENCE+k=z
;T>ROBANG
ql
yw
oq TIE
kb vp nb
AST>ISM
pp=l
km?o
g#l)d:QUILL$4f
k]e#m+ge=z+fz]e
TIRONIAN r ET
ca wy r
j o=l!1m
er'n
ca nn
CLOSE UP
bi AST>ISKS ALIGNED V>TICALLY
ot|l r
SWUNG|j
cy yw
mk ne#m
bw q ne
lb nd
cc q ne`cq`bi
cc q#m
ha'a
TRICOLON
s)c=n
ek MATHEMATICAL]s
WORD ps
uy APPLICATION
;VISIBLE?s!fb!cx
@8294
mt ISOLATE+nk+mi STRONG+POP ug
vo SYMMETRIC SWAPP;G`sj
vo ARABIC]m SHAP;G$3sj
wf'x SHAPES`NOM;AL
ru=q!df)*I
@8308!c.cq!dg!dn!de!ed!cx r!dl!cn r!g]p!1f!df)*N
rs=q!bt!bi!bw!c.cq!dg!dn!de!ed!cx r!dl!cn r!g]p!1f
@8336
df rs)*A_E_O_X_ld_H_K_L_M_N_P_S_T
@8352
EURO-CURRENCY r+fm+CRUZEIRO+ux FRANC+LIRA+MILL+NAIRA+PESETA+RUPEE+WON+NEW SHEQEL+DONG+EURO+KIP+TUGRIK+DRACHMA+G>MAN PENNY+PESO+GUARANI+AUSTRAL+HRYVNIA+CEDI+LIVRE TOURNOIS+SPESMILO+TENGE+;DIAN RUPEE+TURKISH LIRA+NORDIC#m+MANAT+RUBLE+LARI+BITCO;+SOM
@8400
os]#z^!2f!co s#y jl!3do!em?^!2fd!2g!2f!cp jl!2fd!2em!bw=n^!2c.up#c(bl(dd(bc jw!g=?^!up rc(vt(UPWARD'y)i!fj's jl!1k s#b!ANNUITY x!dh UND>DOT!WIDE jz^!o? jl!1co k's!m#z~n z!4o!g?#f!2f!en^
@8448
si OF
ADDRESSED TO?r SUBJECT
hb| C
pa CELSIUS
gx#y x
CARE OF
CADA UNA
EUL> tl
SCRUPLE
pa FAHRENHEIT
gf) G!d H`jx`hb
PLANCK tl(dm#i PI
gf| I`jx
gf| L!1c
L B#j x
hb| N
NUM>O r
hp RECORD;G tq
gf| P`hb(Q
gf| R`jx`hb
PRESCRIPTION TAKE
RESPONSE
S>VICE#m
gg r+TRADE#m
V>SICLE
hb| Z
OUNCE r+OHM`cy
jx| Z
cj ja)*dt
KELV; r+ANGSTROM
gf| B
jx| C
ESTIMATED x
gf) E!1d(F`cj
gf| M!c O
ALEF x+BET+GIMEL+DALET
jd xv
jo| Q
FACSIMILE r
hb) PI(iz!1d(PI!ji nq
cj nm| G&L$3ca
cj nm| Y
hb ITALIC| D(1c&E&I&J
PROP>TY#y
cj ob
P> r
AKTIESELSKAB
cj) F
x'b SAMARITAN xv
sd km#t SEVENTH&N;TH&TENTH&THIRD(bi yh(bt FIFTH(bi FIFTHS(1bw(1cc(bt SIXTH(cq SIXTHS(bt^u(bw?y(1cq(1dn
km NUM>ATOR#t+nl^j(bi(bw(cc(cq(dg(dn(de(ed(eu(hz(hu(pf(bt jb(1cq(bt js
c nl^j#t&bi&bw&cc&cq&dg&dn&de&ed&eu&hz&hu&pf&bt jb&1cq&bt js
nl^j#t js C D(cq js(1eu(ca#t jb
df)#)a C
nl^j|g LATE]m(1pf EARLY&js(1bt jb
sd km=q yh
cj'x#i(bw
@8592
o?+bh+m+z+g=+UP n+cr)w!1cm`cz!1cw
o?~b$3m
o]h?`m+o#i HEADED$3bh$3m$3z
o?:dy$3m
o?]a#j$3bh$3m$3z
UP n?:BASE
o?:v$3m
o?:kt$3m
g=]h?(h~b
z lq?
bh?:gt o_m
z?:gt o_m
m?:fv z
z?:fv o
em)u rd?$3fd
cr)w? TO)o#j+o? TO#j|m m? TO
em)g#c?$3fd
o#z~n#h_z
bh#z~n m_o
m#z~n#h_z
z#z~n m_o
m?|m o?+bh? o OF z+o?|m m!wo]v`bh`m`z
o#z|m m#z+m#z|m o
o k?~b$4g=$4m
o k?`bh`m`z`g=`UP n`cr)w!2cm$3cz!2cw+o|h`m+o xz`m
bh?:k#b$4z
o oz?`bh`m`z
o? TO#j$3m
o l?`bh`m`z
bh l?]a#j&ON ws[a y#j
61s(k?_ON ws
m l?]a WALL
cr)w? TO=v$3cz)m
UP n l?
f?%)#c
z? o OF#h?
bw m]v
o?:s#b$4m$4g=`o?:k$5m$5g=
o OPEN-HEADED?`m`g=
eb ALL
COMPLEMENT
PARTIAL DIFF>ENTIAL
TH>E EXISTS!fx#s EXIST
kh SET
;CREMENT
NABLA
iv OF`bs AN`c
ir AS wb`fx#s ow`c^r
eq OF PROOF
ji]q!tp!nq
dl r+M;US-OR-PLUS
q)x
hx?o
SET|l
en)s+cp+fl
bl ROOT+CUBE+FOURTH
PROPORTIONAL TO
mr
f)l
cl+kx+xw
DIVIDES
fx#s pd
jm TO`bs
fh'!OR
ds
ee
gb+k+dh+to+SURFACE+VOLUME+fd!1to`em
TH>EFORE
BECAUSE
RATIO
xe
q|l
EXCESS
GEOMETRIC xe
vl
bd)s
ca#d
cy LAZY S
S;E]h
WREATH]q
bs#d+dl
ASYMPTOTICALLY#a TO$3bs`jv!2ka#s ACTUALLY$3ky jv^i`fr$3bs`fr#a OR
dh#d
ALL#a TO+ia`va
DIFF>ENCE lv
APPROACHES?r LIMIT
va#a TO
jv#a TO OR?r?d OF
hd OF OR jv#a TO
fm)n
cn=m
cp ;#a TO!1ba+CORRESPONDS
ESTIMATES
EQUIANGULAR TO
dx)n
gz#a TO
ba TO BY DEF;ITION
kx BY
QUESTIONED#a TO`bs+pq`bs+STRICTLY^a+be OR#a$3bg`be|m$3bg`be ka#s$4bg
MUCH#e!bg
lv
bs^a TO!be!bg
ky#e^i#a TO!3bg+be OR^a$3bg`ky#e^i!3bg
be OR#g
bg OR#e
ky#e^i#g!bg^i#e
ez
fc
ez OR#a TO$3fc+ez OR^a$3fc
fx#s xc(yc
da OF+db+bs A|a(1db
da OF OR#a TO$4db`ky A|a OF^i(4db`da OF~s$5db
MULTISET!gn!ee
bl?d OF!1la!hd OF OR#a TO!4la!CAP!CUP
ck)x!dl!hs!hx?o!q)s!1cp!1en!cn!dj
lg)x!dl!hs!q)s
f't+g+n+UP
ASS>TION
MODELS
rz
FORCES
dh s#j= sa`k s#j k
fx#s PROVE
bs rz
fx#s FORCE
wg k s#j k= sa
ez UND> qz`fc
go?q OF
ir AS]o?q
go?q OF OR#a TO$3ir AS]o?q
la OF+hd
we
H>MITIAN CONJUGATE MATRIX
;T>CALATE
XOR
NAND
ii
f)l:fs!ci
ji=h'(OR!ds!ee
dd)s+q+dx
hx?s
oj
g]o FACTOR xq]q$4f`g`f
ca#d)n
eo=h OR(e
k|a!db!ds!ee
wz
ba' jm TO
be:q`bg
V>Y MUCH#e(bg+be#a TO OR
bg#a TO OR#e$3ba&bg&ez&fc
fx#s xc OR#a(2yc
bs#l?d OF OR#a TO(4la`bl?d OF OR#s!5la+be ka#s^a$4bg$4ez$4fc
bs]o?q OF
fx#s ow AS]o?q
bs]o?q OF OR#a TO
fx#s ow AS]o?q OR#a
s uo+MIDL;E y+UP='p$3n
iv OF%)o y#b&2s#j AT'q OF$9c^v
iv OF:q^&gc$4c
iv OF%'v&bi y yb
ir%)o y#b(2s#j AT'q OF$9c
ir:gc$3c
Z jj BAG MEMB>SHIP
DIAMET> r
mf?
mq
UP=t+n
PROJECTIVE
P>SPECTIVE
WAVY#y
g CEIL;G+f
g FLOOR+f
di= CROP!1g+cu=!1g
ca#s r
bl ku
fs
SEGMENT
SECTOR
gg RECORD>
xb kq
VIEWDATA#l
PLACE OF ;T>EST r+cj#s
WATCH
po
cu]=v!1f+di]!1f
cu)e]b`di
FROWN
SMILE
UP=t lv#i y BARS
OPTION?e
>ASE TO?r=
X ; A qx'g
ks
ej)l)d`dv
>ASE TO?r]
su)p
CYL;DRICITY
ALL AROUND-PROFILE
SYMMETRY
TOTAL RUNOUT
DIMENSION ORIG;
CONICAL TAP>
SLOPE
COUNT>BORE
COUNT>S;K
APL uz x I-BEAM&SQUISH=a&fa#a_pd_dd_if_bc&bc lh_if&ho#j&1jw&fa?o_jw_be_bg&o sb&1m&fa o?_1m&bc jw&n't'v&gz lh&fa n kb_gz&n't^f&bh sb&fa#h?&UP't]c&kd lh&fa UP kb_kd&UP't^f&z sb&fa z?&QUOTE'v&1gz&1dd&1if&1bc&UP ri^f&QUOTE=a&bc|x&fa=m&UP't#x&1kd&1dx&1if&1bc&n ri lh&2g&bd#x&1bg&eh#j&kd#d&ZILDE&lh#d&nn'v&fa#s#a_ge&n kb#d&2UP&dt&hn&du&el'v&1fy&1dt&1du&el
bs?w#m
f)l:z lq?
SHOULD>ED)g'g
lu x
s#y%'c q
vp x+CONT;UOUS UND>L;E`DISCONT;UOUS+EMPHASIS+ou
l#l:gx s#y
ENT> x+ALT>NATIVE?e+HELM
ck y#j:NOTCH!ci n
ok#c:NORTHWEST?
UNDO x+MONOSTABLE+HYST>ESIS+OPEN-CIRCUIT-OUTPUT H-TYPE!1L-TYPE+PASSIVE-PULL-DOWN-OUTPUT+PASSIVE-PULL-UP-OUTPUT
uf tw x]m#i
SOFTWARE-FUNCTION x
APL uz x=a
tz=b?e x
PREVIOUS?l+NEXT
PR;T rc x`CLEAR
g]p)b v(ib(bu v+f]p)b(ib(bu v
g#l)d)b=v&ib&bu=v+f#l)d)b&ib&bu=v
g'o)d)b v&ec na&bu v
eo)d^b
f'o)d)b v&ec na&bu v
gb^b+y#y
cb] OR#u='o)d xp!3f OR#u]
nq)u!di
cu#l)d`di&dm)u#l)d
RADICAL x|i
g s'g#y$3f
y SCAN L;E-1(L;E-3(L;E-7(L;E-9
DENTISTRY x w s')u=[1di_a#c&2n' y&4UP&s%)i&2n' y&4UP&s']h&1n' y%&4UP&n' y&2UP&s')u][1di
bl FOOT
ni x+EJECT
s#y^b
METRICAL)h!co|m|o!do|m)o!co|m#i xr!bi xr|m)o&kr!TRISEME!TETRASEME!PENTASEME
me ve
FUSE
cu]p+di
cu'o)d`di+cu lk^n$3di
l TRAPEZIUM
su)p~c
STRAIGHTNESS
FLATNESS
AC tw
ELECTRICAL|s
tz EXPONENT x
j|v k)i!2ej!2gu!2gl!dv k)i:s#j!5ej!2dv)i:k
ALARM lz
STOPWATCH
TIM> lz
po:FLOW;G SAND
j'k'j)i(1dv(1gu(1gl
k s#j
j#l'b=k!bc'b qw
POW> x!1ON-OFF!1ON!1SLEEP+OBS>V> EYE
x'b NULL(rq OF vg_li(2eq_nx(uq(ls(lu(sp(y ns(by kj(s ns(gm kj(th ni(rh OUT&;(DATA qa mg(ke^s#t_bi_bw_cc(ih ls(yf IDLE(eq OF nx lw(tg(eq OF'k(rt(mg(kl=b(1pl(1qw(1UNIT(gs(pb
BLANK x
cg'g
x'b wj(pb]m#i(2rt
@9280
OCR v!CHAIR!pj!1cy!BELT BUCKLE!BOW TIE!BRANCH oe IDENTIFICATION!AMOUNT OF?w!dj!CUSTOM> si=i!k jw
@9312
ck'x#t(bi(bw(cc(cq(dg(dn(de(ed!fi'u(hz(hu(nv(ml(mh(le(no(kg(my(ll
wr'x#t(bi(bw(cc(cq(dg(dn(de(ed!fi'u(hz(hu(nv(ml(mh(le(no(kg(my(ll
ex#t^c=k!2bi!2bw!2c.2cq!2dg!2dn!2de!2ed`fi'u!2hz!2hu!2nv!2ml!2mh!2le!2no!2kg!2my!2ll
wr|f)*A_B_C_D_E_F_G_H_I_J_K_L_M_N_O_P_Q_R_S_T_U_V_W_X_Y_Z
ck|f ,A_B_C_D_E_F_G_H_I_J_K_L_M_N_O_P_Q_R_S_T_U_V_W_X_Y_Z(c*A_B_C_D_E_F_G_H_I_J_K_L_M_N_O_P_Q_R_S_T_U_V_W_X_Y_Z!ex=q
ih)k=i?z&hu&nv&ml&mh&le&no&kg&my&ll
k)k'x#t&bi&bw&cc&cq&dg&dn&de&ed(fi'u
ih)k'x=q
eg DRAW;GS w y(1p(w s(1p(w|h|j y(3p(w|h|j s(3p(w lb|j y(3p(w lb|j s(3p(w n'=(n w'= p&p'= w(p n'=(w n'](n w'] p&p'] w(p n'](w UP'=(UP w'= p&p'= w(p UP'=(w UP'](UP w'] p&p'] w(p UP'](w s'=(s w'= p(UP p'= n w(1n p'= UP(1s p'=(n w'= UP p(1UP w'= n(p s'=(w s'](s w'] p(UP p'] n w(1n p'] UP(1s p'](n w'] UP p(1UP w'] n(p s'](w n' y(g p'= n w(2f p'](n w' y p&p' y w(f w'] n p(2g w'=(p n' y(2w UP(g p'= UP w(2f p'](UP w' y p&p' y w(f w'] UP p(2g w'=(p UP' y(2w s(g p'= s w(2f p'](s w' y p(UP p' n y w(2n p' UP(2s p'(1g UP p'= n(2f UP p'](1g n p'= UP(2f n p'](n w' UP y p(2UP w' n(1f w'] s(2g w'=(p s' y(1w k|j(3p(w k|j s(3p(k y&s(n)v'= k&k'=)v(k n'=(n)v'] k&k'])v(k n'](UP)v'= k&k'=)v(k UP'=(UP)v'] k&k'])v(k UP'](s)v'= k&k'=)v(k s'=(s)v'] k&k'])v(k s'](n)v' y k&k' y)v(k n' y(UP)v' y k&k' y)v(k UP' y(s)v' y k&k' y)v(k s' y(w=s n'=
6g_2UP
6f&ep)b= TO#u][g TO#u=_ea&g&UP&f&n(p]&UP&f&n(w]' p=&UP' p n(p]' w=&UP' w n
cb)e lw+bu#t^u(1hm!1bw?y!1ce!1cq?y!1bw qu!1dn?y+ic+g|n?y!1bw qu!1cq?y!1ce!1bw?y!1bt?m(1iu+f)e
w SHADE+ek+DARK
cb#t^u lw$3f
nf#u](f!cb]&e#u]'#u=[f_cb='#u]
8f(f&e#u]
6e#u=
j#l+l(a xn tr(tn j)#l
bl:y pg(1s(1ORTHOGONAL tu(1cb] TO#u=&1f TO#u](1ep tu
j)#l`l
j qx+l+j s`l
j PARALLELOGRAM+l
j]u)i`l+j]u)$3l+j|v`l+j|v)$3l
j|v xa`l
j]l)i`l+j]l)$3l+j'j`l+j'j)$3l
j'j xa`l
j|d+l(tn j)|d
FISHEYE
ku
l#c+ha
bc:s pg
BULLSEYE
j#c
bc:g)e j(2f(2bu(2cb&1f nf(2ALL ka)b]
g)e j#c$3f
;V>SE=l!l#c$3cb)e$4bu
cb] nf CIRCULAR=s!3f$4bu!3g
cb)e#c`bu
j#u=)i(1g!2cb(1f
l=l
bl:g)e j(2f(2cb]'p(3bu=
l#l:s BISECT;G#y!gu)i:q
gu)i:g)e j&2f
hg#c
l#l%)b] nf&2bu_1f&2cb!1bc%)b]&2bu_1f&2cb
cb])i!1f+bu]
l'k#l`j+l'k)$3j
bu=)i
j jr:qv
kc
lm
rn
COMET
j|x+l
mu
THUND>STORM
jr
so NODE+uc
CONJUNCTION
OPPOSITION
j]g+l
iq'g(a?w&X
rb
lm:ng DROPS
HOT BEV>AGE
l SHOGI na`j
SHAMROCK
ca jo ph|r=l
j]'y kp!2f`l]!2UP!2f!2n
rl' ts
CAUTION r+RADIOACTIVE+BIOHAZARD
CADUCEUS
ANKH
ORTHODOX'a
CHI?n
ea OF LORRA;E(J>USALEM
dx' ma
FARSI x
ADI SHAKTI
pm' SICKLE
PEACE x
lo ln
TRIGRAM'b HEAVEN(LAKE(FIRE(ym(ny(se(qe(me
WHEEL OF DHARMA
l mm#v!1fp`j
l jr:qv
mi?m?i`py
M>CURY
kk r
me
kw r
JUPIT>
SATURN
yy
wh
PLUTO
ARIES
TAURUS
GEM;I
CANC>
LEO
VIRGO
LIBRA
SCORPIUS
SAGITTARIUS
CAPRICORN
AQUARIUS
PISCES
l CHESS ms(QUEEN(ROOK(sx(vu(PAWN
j CHESS ms(QUEEN(ROOK(sx(vu(PAWN!SPADE SUIT+l|r!1dd+j CLUB+l SPADE+j|r!1dd+l CLUB
HOT SPR;GS
hm kz+iu
ss^u qh!1SIXTEENTH
MUSIC FLAT r!1NATURAL!1rg
cw SYRIAC'a`cm
yx qy x
qy x'b TYPE-1 PLASTICS&1TYPE-2&1yr&1ys&1yt&1yu&1TYPE-7&GEN>IC MAT>IALS
j yx qy x+RECYCLED PAP>`PARTIALLY-RECYCLED
P>MANENT PAP> r
WHEELCHAIR x
DIE FACE-1!FACE-2!FACE-3!FACE-4!FACE-5!FACE-6
l#c:q=&bi=n
j#c:l q=&bi l=n
MONOGRAM'b ln(lo
DIGRAM'b vc ln(LESS> lo&ln(vc lo
l^y+j
pm' PICK
ANCHOR
tt SWORDS
STAFF OF AESCULAPIUS
SCALES
ALEMBIC
mk
GEAR
STAFF OF H>MES
ATOM x
FLEUR-DE-LIS
jk l|x
bw L;ES CONV>G;G=&g
WARN;G r+kn VOLTAGE+uk kk!1kw`;T>LOCKED kk'+kw' kk!1a#b&1e kw' kk+s kw~b$4y
ek l#.1j!1c l
MARRIAGE x+DIVORCE+UNMARRIED PARTN>SHIP
COFF;
FUN>AL URN
NEUT>
C>ES
PALLAS
JUNO
VESTA
CHIRON
j?i LILITH
SEXTILE
SEMISEXTILE
QU;CUNX
SESQUIQUADRATE
SOCC>]i
BASEBALL
lg?e
l um?h(ms
j um?h(ms
rn nz rm
jr st kc
ng
j rn
ym kc' ng
cj l SHOGI na!2j
l|d ;#l
fw LANES
DISABLED CAR
OPHIUCHUS
PICK
CAR SLID;G
HELMET:l'a
ck=w LANES
CHA;S
NO ENTRY
ALT>NATE ONE-WAY] WAY TRAFFIC$3j TWO-WAY$4l
j] LANE M>GE$3l
DRIVE SLOW r
p l]l)i
g|q ENTRY
lg rb
ix'p ; l#c ; j#l
j TRUCK
RESTRICTED] ENTRY-1(ENTRY-2
ASTRONOMICAL x'b yy
p#c~b'#i=n^
PENTAGRAM+RIGHT-HANDED ;T>LACED`LEFT-HANDED+cy
j'a ON SHIELD
SH;TO SHR;E
CHURCH
ti
HISTORIC SITE
GEAR nz HUB!a HANDLES
MAP x'b LIGHTHOUSE
qe
lm ON ve
uw
iy ; HOLE
F>RY
SAILBOAT
bl)c tr
SKI>
ko SKATE
jn:gi
TENT
ie oe x+HEADSTONE GRAVEYARD
FUEL PUMP
CUP ON j#l
l^y:y'c j STRIPE
j SAFETY SCISSORS+cb BLADE+j+bu BLADE+l!p?w#m
gg LOCATION r
TAPE DRIVE
AIRPLANE
iw
lc FIST!fg+yz+ze
bu= qn
qn+cb=
l NIB+j
hw#m`p
gn X`p+iq`p
jk ja'a`p+cg]x$3p+df`jp l`jk+MALTESE
dx OF DAVID
cc nt'n!1sr$3p+cc CLUB-SPOKED
j)c]d|x$3l
SPARKLES
STRESS jk l|x`ck+cg]x j+j]x l+jk j$3p+qq+jp l
p'n+cg]x+de SPOKED!gd j|x(1qq+dg]d j`de]d RECTIL;EAR$5p`hu]d
le]d'n+nt`cg]x`p
dg ww j' l FLORETTE+j+l+de ww jk j
ck)g]x|e]d|x
p nt qq'n
SNOWFLAKE+TIGHT TRIFOLIATE+p CHEVRON
SPARKLE+p
sr'n+de nt PROPELL>$4p
ea#m
jp l#c
ih lg'a#m
bu= DROP-SHADOWED l#l$4cb`bu= jp$4cb
j]e#m qj$3l!2fz
j|d|l l X
p=z#m x
w s#j`ek`p!cv)j'h]r#m qj(3eh!4k)j(3eh!4er)v(4k+mb np wq r+p=z#m!3dr!j|r
jo p j|r=l
ph|r
jo ph|r=l
ek]]p qj!2f!2FLATTENED](2f!1ej)l)d!3dv+p'j)l]r#m!4dv!1ej)l)d!3dv`w] lk^n!4f`ek]'o!3f
D;GBAT^h)k'x#t_bi_bw_cc_cq_dg_dn_de_ed&fi'u!ck nm'x#t_bi_bw_cc_cq_dg_dn_de_ed&fi'u!ih)k nm'x#t[bi[bw[cc[cq[dg[dn[de[ed_fi'u
p WIDE-HEADED m?!cx r!1dl!1hx!cz)m?!1m!1cr)m+DRAFT;G nb m`p ROUND-TIPPED`dp$3p$3oz$4p`j
yk rw m=t!2BOTTOM-LIGHTED`j
p j mb z' m?&3bh`SQUAT j$3p CONCAVE-PO;TED`RIGHT-SHADED l$3LEFT-SHADED$3BACK-TILTED jp$4FRONT-TILTED$3p#u xm!4cb$4qg#u
eo kt
qg)b xm l m?$3ck p`WHITE-FEATH>ED+sy)z)m!1m!1cr)m`p sy)z(1m(1cr)m+TEARDROP-BARBED m`p TEARDROP-SHANKED`WEDGE-TAILED$3p`OPEN-OUTL;ED
k'o kt
@10496
m?v?:s#b_2k`o k?%$5m$5g=
m?v?]a#j$3o k$4m
z?:y#b$4bh!dh?`z+o k|j$3m`o|h$3m!3hv!h:ha np
bh? TO#j$3z
m?:dy:s#b[2k!hv?:dy[a s#b
62k
o ARROW-TAIL+m+o k`m
o? TO j|d$4m$3o?]a#j$6m
cr)w')z)m?!1cm')z)w!cw?:v!3cm$4cz!3cw
cr)w?')r)m?!2cm?')z+cz)m?')z)w!2cw?')r
im'p=w^x'p+ix'p=w^m
cz)m?=w)r)m?`cr)m?=w)z`ix'p=w)r`im'p=w)z+cr)m?=w)r)w!1cw?=w)r)m
gh?'y uh=
h'y m rv tx#h[z(z rv tx o[m
RIGHT-SIDE=s=d?+LEFT-SIDE=s'm$3cu$3di
cu=s=d?:dl(em?%)x
bu= re=d?!1g re'm+em|q#c$3fd+m?^|o o+o?^|o m+do m?^ o
m?%)x#f$4o
m?^p X
g=?^p)#c`bh?v?]a
g#n UP=#n n#z(1n=#n UP+UP#n= n#n](1g n#n=+g#n UP=#n UP+UP#n= n#n=+g#n n=#n n+UP#n] n#n]
o#z~n UP TO#j$6m`bh#z~n=$6z`o#z~n n$6m`bh#z~n]$6z+o#z~n UP]a$6m`bh#z~n=$6z`o#z~n n$6m`bh#z~n]$6z
o#z~n UP^ o#z~n n
bh#z~n]=u#h#z~n=
m#z~n UP^ m#z~n n
z#z~n]=u z#z~n=
o#z~n UP^ m#z~n UP_n^ m#z~n n
m#z~n UP^ o#z~n UP_n^ o#z~n n
o#z~n UP^)o|j_2n#f`m#z~n UP^_2n#f
bh#z~n]=u z#z~n=$4z#z~n]=u#h
f k?:xn pn
cn r^ m?$3bd)s
o?^#d)s$4m&fr#a TO
be^ o?
o?^p#e
bg^ m?$3da
o?^p|a
db^ o?
g mj|y`f`UP`n
dh s#j DELIMIT>
Z jj SPOT(TYPE=m
g l'o)d$3f
g l]p`f
Z jj]?d)d(2f(1g B;D;G(2f
g#l)d%'v$4f
g#l)d:nw ;)u=v+f#l)d:nw ;|i$7g+f#l)d:nw ;)u
g)l)d:q$4f
g=s#e)d+f=s#g$3k]!1f=s#e+g j lk^n$4f
ha FENCE
s lq#y
kx)l mz]
f)l VARIANT~l
kx=)l:q
cl:S je
bk)l
xw)l mz]&UP
cj)l+ca
cl%'v$3ca
OBLIQUE)l mz UP&n
kx)l%)g ARM END;G ;?'y UP'=
9UP']
9n'=
9n']
9f' UP
92g
9f' n
92g
ca kh SET
kh SET:gc&c#c^&1f?&2g
bc:y#j+ck s!jm!fj's!wu
bc uj BY y#j')u)e uj BY s#j!a SUP>IMPOSED X
ck ANTICLOCKWISE-ROTATED?x r
UP?^p#c
ck l=l!fl!be!bg
bc%)#c TO?r=(3bi y yb
lg^m'p?o!2ix!en!c#.bl
bi kr xy
ci:q^(ev
S ;)i
ci:rf AT|i
f)i^])i
g)i=u s#j
s#j=u=)i
oj:g)e j(2f
j oj
hs:g)e j(2f
l po+j
g WIGGLY FENCE`f`g k$3f
;COMPLETE mr+TIE|m
mr wg:s#j
DOUBLE-ENDED we
bl:CONTOURED OUTL;E
;CREASES AS
SHUFFLE]q
cn r'|w jm[a#d^
pq TO'|w jm
GLEICH STARK
TH>MODYNAMIC
gl)i:g)e j&2f
j|d:n?!ku
l#c:n?$4j
>ROR-BARRED l#l!1j!l|d!1j!l#.1j
RULE-DELAYED
fj's)s
es:gc
fj's:y#b
BIG's!1fj
k)x+dh
ej mb)l)d$3dv
T;Y
M;Y
ji)k q)s(1cx(1hs!ee)s:q_cx!bl|s)s(1ee+bi=h'(1OR+ji?s
MODULO#i SUM
nq:gb
lb]b)s
F;ITE qm]b
gb:k#b!AV>AGE:ho
CIRCULATION uy
em vq
by vq:RECTANGULAR PATH sn qr&3re(1bs ;CLUD;G?r
gb sn A nb)s+QUAT>NION]b
gb:o?:v(hs r(ds(ee(gc(ev
JO;
hg])i)s
Z jj SCHEMA ou&PIP;G&PROJECTION
cx r%)#c^&1bo|c&1bd&q#f&1bd&rs#i&j)i
dl r%'h^&q#f&ix=n&1im
cx r ;])e#c&2f
VECTOR OR'a]q
gn r:q^&ev
xq]q:di|q
SMASH]q
gn r ;])e#c&2f
ck]n r~o|c
gn r ; k#c
ck?x r
cx r ;)i$3dl$3gn
;T>IOR]q`RIGHTHAND
Z jj RELATIONAL ou
AMALGAMATION OR tp
ds:q
ee:dl r(gc`ds(fh'
ee:fh OR!i|s
ds^'e
ee^#j^|s
ds^#j^'e+ee=u' kr%
ds=u' kr:ds
dq'e:rf!2ds
k#l|s(ee
dq'e:rf' SMASH]q
fh':q^!3OR
k=h'(OR
bi ;T>SECT;G=h'&OR+SLOP;G?g(e+fh OR qk=h!e%'c np!3OR!e:y|j!3OR!e:k]c&ev&1k+c VEE%
fh OR:k]c_ev
Z jj DOMA; ANTIRESTRICTION(1RANGE
cn r:q#f
pq:q^
dh y#j:k s#b_2dh
bd)s:q^&im=n
jq|l jq
CONGRUENT:q^
cn%'n
fr#a TO~o|c
jv#a OR#a TO
cn r^)x r+cx r^)n
cn r^#d)s
k=m#a
bi CONSECUTIVE)n SIGNS$3bw
cn r~i=n^'#i=n#f
ia%)c=n^
be~c je$3bg
be:ge#m^$4bg
be OR|w#a TO$4bg
be OR|w#a TO:q je$7bg
be OR|w#a TO:q^$7bg
be OR|w#a TO:q^=
bg OR|w#a TO:q^]
be OR sl`bg
be' rk#s#a TO$5bg
be'#s sl$3bg
be^ kf#a^#g
bg^ kf#a^#e
be^ jq OR#a$4bg
be^ jq^#g
bg^ jq^#e
be^#g^ kf#a$3bg^#e+be^|w#a^#g^|w$3bg^|w#a^#e
dw#a TO OR#e_bg_be:q je_3bg
kf#a TO OR#e_bg!dw#a TO OR#e[bg
jq OR#e(bg!i#e^)n r(3bg
k wi#e(bg(be%'v
bg qk#e!1fu
be|q BY CURVE$3bg
be|q BY CURVE^|w#a$6bg
xu THAN+vw
xu THAN OR#a TO$4vw
cn r:BUMPY^
ez^ rk)n r$4fc
ez^ rk#s#a TO$5fc
ez^)n r$3fc
ez^#s#a TO$4fc`ez^=r$4fc$3ez^#s$5fc
k'z!fc
da:q`db
da%)x r#f$4db`da:gn$4db
da OF OR#a TO:q^$7db
da OF^)n r$4db
da OF^#d)s$4db
da OF^=r#a TO$5db`da OF^#s$5db
bl])g'g)s!3f
dq|a!db!da OR#a TO!3db
da^|b
db^|a`da
db^|b!fu|a(1e kr BY|j%
iv OF mz z
wz:TEE)u
TRANSV>SAL|s
FORK;G
NONFORK;G
do]'t!1n!1UP
wu:S
s#j|h= sa+k s#j]`s#j k$5k
co|j]a] wb OF k s
do n't:g.UP't%'v&i|o n't`k!1UP!bb#s r$4ca
fx#s pd%)a NEGATION?o
s#y~c^_bf$3n't
jm:y#b(bd)s
dh s#j sw qz&a y#b!fm)s!wi#e(bg
kf|w#e OR#a TO(3bg
dh's sw qz
hg|h s#j)s+k's
l s#j$3ji
cr)m l?!2cw`cz)m!2cw`g=+o j`bh`z`cr)m!2cw`cz)m!2cw`g=`UP n
m?:gt z_bh
o?:gt z_bh
bl%)u)e j(2di(2cb='p(3bu]`dd:g(2f(2cu(2di
ha#l+j?g`l+j V>Y)$3l
j qo+l!HEXAGON+j`y
j?g#.ek|d`l
j'k ku`l
j)|d(ku`l
j y ELLIPSE`l+j s`l
g?%)#c
bw o]v
g?%)k)x
co o xz?
o?v?:s#b_2k&ga#j(dh|j?!h:ha np&dy:s#b[2k!hv?:dy[a s#b
62k!h^p X
gh?'y uh]
cn r^ o?$3fj#d)s
o?^=j=r#a TO
m?^p#g&db
o lb?`m+fj#d)s^ m
m?^=j=r#a TO
bd)s^ o?
o?^=r#a TO&fj#d)s$5m
z|p lq?+do|w)r!1od)z
l'k|x+j)`l
j|v qo`l
p?g#.OVAL:OVAL je!1bc~.b.ck rb
dw)r?:vm pn
od)z?:vm|y+dw)r?:y$4od)z
BENT?'y z rv)r)m$7do
o|p?`bh`m`z`g=`UP n`cr)w!2cm$3cz!2cw+o|p oz$3bh$3m$3z+fd|p)g#c$4em
o|p? TO#j$4bh$4m$4z
@11126$4cr)w!4cm$5cz!4cw
o|p?:k y#b$6bh$6m$6z
y TAB?e`s
o|p?|m m|p?`bh|p? o OF z`m|p?|m o`z|p? o OF#h
o|p wo]v$3bh$3m$3z
o j)k l?$4bh$4m$4z+em|p= U-SHAPED(2di(2g(2cu
ni]!f
wj]!f
cc=v]v CIRCL;G'm
m j?
@11159
x'b TYPE A ELECTRONICS
yk rw o EQUILAT>AL=t!2RIGHT-LIGHTED#h!2rw m!2LEFT-LIGHTED z`j o!2bh!2m!2z
z|p?%)o]t o
6m
bh|p?%)o]t o
6m
o|p?%)o]t#h$6m
o|p?%)o]t z$6m
j mb z' o?_1m(1bh' o_1m(1o'#h(3m(1o' z(3m
nj? n]&f(UP]&f(g UP(1f(g n(1f
bh l?]a#j:y#j
UP=t ; A qx'g
qk l xy(1e j!1j
iq'g:w X+ck!1oh
j#l op!1dd
cj j qo
y j OCTAGON+j!ek]u)i op(2gl(2ej(2dv
wh]m#i
cu)e j#c$3di
w)c]d j CUSP$5jo+l)c]d$4jo
bl xb kq
UNC>TA;TY r
pl#m
PLUTO]m#i(bw(cc(cq
TRANSPLUTO
PROS>P;A
ASTRAEA
HYGIEA
PHOLUS
NESSUS
l?i SELENA
j|d ON'a
rz w?i ARTA
CUPIDO
HADES
ZEUS
KRONOS
APOLLON
ADMETOS
VULCANUS
POSEIDON
g)e j|x$3f
dx:g)e j(2f
o?v?%)i ARROWHEADS$5bh$5m$5z
>IS]m#t(bi
SEDNA
RUSSIAN ASTROLOGICAL x VIG;TILE&NOVILE&QU;TILE&B;OVILE&SENTAGON&TREDECILE
cn r:mr#f
UNITED x+SEPARATED+uk+PASSED
ca=)l
HELLSCHREIB> PAUSE x
@12288
jc]s!eh!ic=k
DITTO#m
ie ;DUSTRIAL STANDARD x
jc vr#m!1CLOS;G!fi=q
g)l)d`f`g k$3f+g=v`f`g l$3f+g j vx$3f
nc#m+GETA
g lk^n)d$3f+g l vx$3f+g l lk^n$4f+g l#l$3f
gh|j
ca k nd]r#m$3k$4er
nc#m#v
vf^j#t(bi(bw(cc(cq(dg(dn(de(ed
jc LEVEL?t#m!2im!2ub!2ENT>;G`HANGUL)v q!3k
WAVY|j
s KANA REPEAT#m&1a sc?p&bm)b)e&3a sc?p&1bm#u
ck nc#m
jc TELEGRAPH#y kj=b x
vf^j'u(ll(THIRTY
s jc vr#m+MASU+qm ALT>NATION
jc VARIATION kq!ce pg]s
@64256
df) jg FF&FI&FL&FFI&FFL&co S T&ST
@65281
FULLWIDTH=z#m!1gr!fi r!1m.1wt!ob!ju!g]p!1f!en!cx r!eh!vn!ic=k!es!ex=q(bt(bi(bw(cc(cq(dg(dn(de(ed!fm!nn!be r!1cn!1bg!ge#m!ot AT!df ,A_B_C_D_E_F_G_H_I_J_K_L_M_N_O_P_Q_R_S_T_U_V_W_X_Y_Z!g#l)d!fj's!f#l)d!bo|.er#y!br|.df)*A_B_C_D_E_F_G_H_I_J_K_L_M_N_O_P_Q_R_S_T_U_V_W_X_Y_Z!g'o)d!s#y!f'o)d!bd
@65532
OBJECT xl oq+xl
@127744
CYCLONE
FOGGY
dq lm
NIGHT:STARS
ye|m MOUNTA;S
ye
tk AT DUSK
SUNSET|m td
RA;BOW
jz AT NIGHT
se]h
VOLCANO
MILKY WAY
me GLOBE EUROPE-AFRICA(AM>ICAS(ASIA-AUSTRALIA
GLOBE:M>IDIANS
NEW?i x`zc ma`mi?m`zc vb`ic`za vb`py?m`za ma
ma?i
NEW?i~v$3mi?m$4py$3ic`jr
GLOW;G|x+SHOOT;G
TH>MOMET>
j un
l jr(a) kc(1st_a ng`kc(rm(mu(TORNADO
FOG
ny BLOW;G#v
HOT DOG
TACO
BURRITO
CHESTNUT
SEEDL;G
EV>GREEN rx+DECIDUOUS+PALM
CACTUS
HOT PEPP>
TULIP
CH>RY sz
ROSE
HIBISCUS
SUNFLOW>
sz
EAR OF MAIZE(ra
H>B
cc pz CLOV>
MAPLE pz+FALLEN
pz FLUTT>;G ; ny
MUSHROOM
TOMATO
AUB>G;E
GRAPES
MELON
WAT>MELON
TANG>;E
LEMON
BANANA
P;EAPPLE
RED APPLE+pk
PEAR
PEACH
CH>RIES
STRAWB>RY
HAMBURG>
SLICE OF PIZZA
MEAT ON BONE
POULTRY jf
ra CRACK>!gi
COOKED ra+CURRY'
STEAM;G BOWL
SPAGHETTI
BREAD
ux FRIES
ROASTED SWEET POTATO
DANGO
ODEN
SUSHI
FRIED SHRIMP
mj CAKE:SWIRL DESIGN
lf ko CREAM
SHAVED ko
ko CREAM
DOUGHNUT
COOKIE
CHOCOLATE#j
CANDY
LOLLIPOP
CUSTARD
HONEY POT
SHORTCAKE
BENTO'g
POT OF FOOD
COOK;G
pj' pw
TEACUP nz HANDLE
SAKE oi' CUP
W;E GLASS+COCKTAIL
yq DR;K
BE> MUG
CL;K;G BE> MUGS
lt oi
pj' pw:PLATE
oi:POPP;G CORK
POPCORN
nj
WRAPPED PRESENT
BIRTHDAY CAKE
JACK-O-LANT>N
tj rx
FATH> tj
FIREWORKS
FIREWORK SPARKL>
sq
PARTY POPP>
CONFETTI]i
TANABATA rx
tt FLAGS
P;E ua
ie DOLLS
CARP STREAM>
ny CHIME
hi VIEW;G C>EMONY
xo SATCHEL
GRADUATION CAP
dr:gt ON?r]
tb OF FLOW>S
MILITARY MEDAL
REM;D> nj
jh ks:JACKS
STUDIO wc
LEVEL SLID>
is KNOBS
ss so jh qh!2uc
FILM FRAMES
ADMISSION TICKETS
CAROUSEL mp
F>RIS WHEEL
ROLL> COAST>
FISH;G qr' mj
wc
MOVIE om
C;EMA
HEADPHONE
ARTIST PALETTE
cu HAT
CIRCUS TENT
TICKET
CLAPP> BOARD
P>FORM;G ARTS
VIDEO GAME
uf HIT
SLOT qc
BILLIARDS
GAME DIE
BOWL;G
mk PLAY;G CARDS
jh kz
MULTIPLE jh qh
SAXOPHONE
GUITAR
jh ks
TRUMPET
VIOL;
jh SCORE
RUNN;G SHIRT:SASH
yg xi']i
SKI' SKI BOOT
BASKETBALL' HOOP
CHEQU>ED^y
SNOWBOARD>
RUNN>
SURF>
SPORTS MEDAL
TROPHY
mp xh
AM>ICAN FOOTBALL+RUGBY
SWIMM>
WEIGHT LIFT>
GOLF>
xh MOTORCYCLE!CAR
CRICKET BAT']i
VOLLEYBALL
FIELD vk STICK']i
ko vk STICK' PUCK
TABLE yg PADDLE']i
rm CAPPED qe
CAMP;G
BEACH:lm
lx tm
mq td
tk
D>ELICT mq lx+CLASSICAL
DES>T!ISLAND
wf PARK
STADIUM
mq lx!a GARDEN
wl lx
ie POST wl`ur
HOSPITAL
oe
AUTOMATED TELL> qc
HOTEL+LOVE
CONVENIENCE STORE
xo
DEPARTMENT STORE
FACTORY
IZAKAYA LANT>N
ie ti+ur
l PENNANT+j
zb l^y!1j
ROSETTE+j
LABEL
BADM;TON xi' SHUTTLECOCK
BOW'?
AMPHORA
EMOJI mw FITZPATRICK TYPE-1-2&yr&ys&yt&yu
RAT
mx
OX
se BUFFALO
COW
TIG>
LEOPARD
xg
gw
ul
CROCODILE
WHALE
SNAIL
SNAKE
mp
RAM
GOAT
SHEEP
qd
ROOST>
CHICKEN
DOG
PIG
BOAR
ELEPHANT
OCTOPUS
xx^n
BUG
ANT
HONEYBEE
LADY BEETLE
mj+yq
BLOWFISH
TURTLE
HATCH;G CHICK+lt`FRONT-FAC;G
BIRD
PENGU;
KOALA
POODLE
DROMEDARY CAMEL+BACTRIAN
DOLPH;
mx#v+COW+TIG>+xg+gw+ul
SPOUT;G WHALE
mp#v+qd+DOG+PIG+FROG+HAMST>+WOLF+BEAR+PANDA
PIG NOSE
PAW PR;TS
CHIPMUNK
ff
EYE
EAR
NOSE
ig
yo
l UP'y oc kp!3n!3g!3f
FISTED=g r`zb`OK+yl UP!1n+CLAPP;G mn`cg
CROWN
sg HAT
EYEGLASSES
NECKTIE
T-SHIRT
JEANS
DRESS
KIMONO
BIK;I
sg CLOTHES
PURSE
HANDBAG
POUCH
MANS ri+ATHLETIC+HIGH-HEELED
sg SANDAL!BOOTS
FOOTPR;TS
BUST ; rj`BUSTS
BOY
GIRL
hh
oa
FAMILY
hh' oa HOLD;G mn`bi MEN!2WOMEN
POLICE OFFIC>
oa:BUNNY EARS
BRIDE:VEIL
jn:BLOND HAIR
hh:GUA PI MAO(TURBAN
OLD>?h!oa
lt
tm WORK>
PR;CESS
ie OGRE!GOBL;
GHOST
lt ANGEL
EXTRAT>RESTRIAL ALIEN
ALIEN MONST>
IMP
rl
jd DESK jn
GUARDSMAN
DANC>
LIPSTICK
NAIL POLISH
bv MASSAGE
HAIRCUT
BARB> qr
SYR;GE
PILL
pu#m
LOVE#
cp
GEM STONE
pu
tb
COUPLE:dr
WEDD;G
BEAT;G|r+ok
bi vi
SPARKL;G|r+GROW;G
dr:h
jy|r+pk+YELLOW+PURPLE
dr:nj
REVOLV;G vi
dr ua
dd SHAPE:A q je
mf w BULB
ANG> x
BOMB
xt x+COLLISION+SPLASH;G nr
un
dj x
PILE OF POO
FLEXED BICEPS
DIZZY x
rp sq+yi
l mk
jb PO;TS x
MONEY BAG
tv EXCHANGE
p mc r
CREDIT oo
BANKNOTE:YEN r(1mc(1EURO(1POUND
MONEY:W;GS
ly~h TREND' YEN r
SEAT
wv ov
BRIEFCASE
M;IDISC
uv pc
wm DISC
DVD
kl pi`cg
hl:gj!FAC;G UP
tf+TEAR-OFF
oo kp
ly~h TREND(1z
bj ly
CLIPBOARD
xf+ROUND
PAP>CLIP
rr RUL>+ry
ta TABS
LEDG>
NOTEBOOK!a DECORATIVE COV>
dq BOOK+cg+pk+jy+qi
BOOKS
NAME BADGE
SCROLL
MEMO
gg nh
PAG>
FAX qc
SATELLITE sk
PUBLIC ADDRESS LOUDSPEAK>
CHE>;G MEGAPHONE
OUTBOX TRAY+;BOX
PACKAGE
E-MAIL x
;COM;G^w
iw:z?^
dq MAILBOX:wa^y&1lc$4cg&1wa
POSTBOX
nc'i
wk
mv qp(a m? AT]
VIBRATION MODE
mv qp OFF
NO mv PHONES
sk:BARS
om!a FLASH
VIDEO om
TELEVISION
RADIO
VIDEOCASSETTE
FILM PROJECTOR
PORTABLE ST>EO
PRAY> BEADS
TWISTED m]v+fd m' o)g#c
7a)k#t jl!z'#h)g#c]v$6em
er BRIGHTNESS x`kn
ro:on#b
ro!a#t?p]h(bw?p sf
BATT>Y
mf PLUG
ej MAGNIFY;G GLASS`dv
qb:;K PEN
dq qb:he
he
qb+cg
lu!a on#b
ta
qa x
RADIO ol
BACK:o?^$4eq`ON:fz#m:g=`SOON:m`cu~h
NO#t UND> kg x
vt'u
;PUT x'b|f| vy_1c&NUMB>S&SYMBOLS&df vy
FIRE
mf TORCH
WRENCH
pm
NUT' BOLT
HOCHO
PISTOL
MICROSCOPE
TELESCOPE
CRYSTAL]i
dg]d|x%'c q
ie x'b BEG;N>
TRIDENT EMBLEM
j#l ol`l
hg RED#.1jy!qi|d!1jy+c qi!1jy
gu RED)i`gl`gu)$3gl
bu= jp l#c$4cb
ck'a qs
ea qs:HALF-CIRCLE#f!qs
qg] rd~w=n!4f
x'b MARKS CHAPT>
l|f'a`p+CELTIC
OM x
DOVE OF PEACE
KAABA
MOSQUE
SYNAGOGUE
MENORAH%'d BRANCHES
BOWL OF HYGIEIA
lz#v#t OCLOCK(1bi(1bw(1cc(1cq(1dg(1dn(1de(1ed(1eu(1hz(1hu(ONE-THIRTY(TWO-THIRTY(THREE-THIRTY(FOUR-THIRTY(FIVE-THIRTY(SIX-THIRTY(SEVEN-THIRTY(EIGHT-THIRTY(N;E-THIRTY(TEN-THIRTY(ELEVEN-THIRTY(TWELVE-THIRTY
f ro(a#t?p]h&bw?p sf
BULLHORN!a?p sf
R;G;G lu
BOOK
CANDLE
MANTELPIECE lz
j rl' ts
NO PIRACY
HOLE
hh ; BUS;ESS SUIT LEVITAT;G
SLEUTH OR SPY
DARK yd
SPID>!WEB
JOYSTICK
hh DANC;G
g=g]g nh
gg nh:hl
f=g]g nh
l TOUCHTONE]g`j
gg ON)u OF MODEM
CLAMSHELL mv qp
BACK OF^w+ya
iw:mu
FLY;G^w+PEN|m ya
L;KED PAP>CLIPS
j xf
bu] qn(BALLPO;T PEN(1uw(PA;TBRUSH(CRAYON
g ze=g
cj OK=g r
lc=g:ut SPLAYED$5ca!yl UP r(1n!yz=g!fg%'c F;G> EXTENDED
lc=g:qm lv'c')p ut
l n'y]=g kp+xs l]'y(2f!2j](2f+j]'y o.3f+xs l UP'y(2n!2j UP(2n+j UP'y o.3n!dr
ud ov
ks' mx
bw NETWORKED COMPUT>S
xd
POCKET CALCULATOR
j mo^n uv pc$4l$3lf
TAPE CARTRIDGE
WIRED ks
bt ol mx`bi`bw
TRACKBALL
OLD wv ov
mo pc
rc
xd ICON+FAX+wm DISC
pe:li&e wx(wx`FRAME(TILES(AN X
j pi
pi+cg
oo kp DIVID>S!kl'g
kl CAB;ET
kh kz(hl(PAD
kz!hl!PAD
kh pe!hl!PAGES
pe
hl
PAGES
WASTEBASKET
xx kz PAD!1tf
ud W;DOW
M;IMIZE
MAXIMIZE
OV>LAP
fd='] rd]v
on X
;CREASE FONT SIZE x$3DECREASE
COMPRESSION
OLD?e
ROLLED-UP wk
hl%)k li
STOCK ly
ty pw
LIPS
SPEAK;G pn ; rj
bw qv^(bf(g(f
g rp tc`f
bi rp BUBBLES`bw
g yi tc`f+g ANG>`f+MOOD`mu!MOOD
iq'g:iq!gf X!2eg%!2oh!3eg%
w?w#m
iq'g:oh?w
WORLD MAP
MOUNT FUJI
TOKYO TOW>
STATUE OF LIB>TY
rj OF JAPAN
MOYAI
vd#v(a=p=f
bv:TEARS OF JOY
fp#v%)g^g[e=p=f
6or nr
6yn=f&HALO&HORNS
zd#v
fp#v:fp=f
bv SAVOUR;G DELICIOUS FOOD
xk#v
fp#v:vh=f&yd
SMIRK;G#v+NEUTRAL+EXPRESSIONLESS+UNAMUSED
bv:or nr
PENSIVE#v+CONFUSED+CONFOUNDED+pv
bv THROW;G A pu
pv#v:fp=f&1dq
bv:STUCK-OUT yo_e zd EYE[yn=f
ui#v+WORRIED+ANGRY+qt+ox+P>SEV>;G
bv:LOOK OF TRIUMPH
ui ka xk#v
mm#v%)g^g
ANGUISHED#v+FEARFUL+WEARY+SLEEPY+TIRED+GRIMAC;G+LOUDLY ox
bv%)g^g
HUSHED#v
bv%)g^g' or nr!SCREAM;G ; FEAR
ASTONISHED#v+FLUSHED+xt+DIZZY
bv nz^g!a MEDICAL MASK
vd]w#v:fp=f
gw#v:TEARS OF JOY
fp]w#v%)g^g_vh=f
gw#v:WRY SMILE
pv]w#v:dq=f
qt]w#v`ox`WEARY+SLIGHTLY mm!1fp+UPSIDE-DOWN
bv:ROLL;G=f(NO GOOD GESTURE(1OK
jn BOW;G DEEPLY
SEE-NO-EVIL qd+HEAR-NO-EVIL+SPEAK-NO-EVIL
HAPPY jn xj#t=g
jn xj BOTH mn ; CELEBRATION!mm!a qt#v(FOLDED mn
@0
NULL
@0
NUL
rq OF vg
@1
SOH
rq OF li
@2
STX
eq OF li
@3
ETX
eq OF nx
@4
EOT
uq
@5
ENQ
ls
@6
ACK
AL>T
@7
BEL
sp
@8
BS
oq ns
@9+y
@9
HT
@9
TAB
by kj
@10
NEW#y
@10+eq OF
@10
LF
@10
NL
@10
EOL
by ns
@11+s
@11
VT
gm kj
@12
FF
th ni
@13
CR
rh OUT
@14
vz#t
@14
SO
rh ;
@15
vz=q
@15
SI
DATA qa mg
@16
DLE
ke^s#t
@17
DC1
ke^s#i
@18
DC2
ke^s#w
@19
DC3
ke^s)c
@20
DC4
ih ls
@21
NAK
yf IDLE
@22
SYN
eq OF nx lw
@23
ETB
tg
@24
CAN
eq OF'k
@25
EOM
rt
@26
SUB
mg
@27
ESC
jd=b)c
@28
kl=b
@28
FS
jd=b#w
@29
pl=b
@29
GS
jd=b#i
@30
qw=b
@30
RS
jd=b#t
@31
UNIT=b
@31
US
SP
@127
pb
@127
kd
@133
NEXT#y
@133
NEL
@160
NBSP
@173
SHY
@8203
ZWSP
ZWNJ
ZWJ
LRM
RLM
@65279
BOM
@65279
fq WIDTH qf]s
@65279
BYTE ORD>#m"

/-- A text with what the signs stand for; this may hold signs that come later among the pairs. -/
def expand (text : String) : List Char → String
  | sign :: a :: b :: rest => expand (text.replace sign (String.ofList [a, b])) rest
  | _ => text

/-- The number with the small letters as its digits. -/
def placeOf (letters : List Char) : Nat := letters.foldl (fun k c => 26 * k + (c.toNat - 'a'.toNat)) 0

/-- The word that stands in the listing, written out. -/
def wordOf (frequent : Array String) (text : String) : String :=
  if text.front.isLower then frequent.getD (placeOf text.toList) text else text

/-- What the search has come to: the code of the next name, the words of the last one, and the code that was found. -/
structure Search where
  next : Nat
  words : List String
  found : Option Nat

def Search.line (frequent : Array String) (name : String) (s : Search) (line : String) : Search :=
  match line.toList with
  | '@' :: digits => { s with next := (numbersOf (String.ofList digits))[0]?.getD 0 }
  | cs =>
    let shared := (cs.takeWhile Char.isDigit).map fun c => c.toNat - '0'.toNat
    let between := ((String.ofList (cs.drop shared.length)).splitOn " ").map (wordOf frequent)
    let words := s.words.take (shared[0]?.getD 0) ++ between ++ s.words.drop (s.words.length - shared[1]?.getD 0)
    { next := s.next + 1, words, found := if s.found.isNone && " ".intercalate words == name then some s.next else s.found }

/-- The code of the character with a name, in letters of either case. -/
def code? (name : String) : Option Nat :=
  let lines := (expand listing pairs.toList).splitOn "\n"
  let words := ((expand frequent pairs.toList).splitOn " ").toArray
  (lines.foldl (Search.line words (name.map Char.toUpper)) ⟨0, [], none⟩).found

end CharNames

end MiniC
